import Fumiko.EmailCore.CursorLaws
import Fumiko.EmailCore.GmailBaselineLaws
import Fumiko.EmailCore.ImapDiscoveryLaws
import Fumiko.EmailCore.OutlookReplayLaws

namespace Fumiko.EmailCore

open Fumiko.Common Fumiko.Foundation Fumiko.Foundation.Action Fumiko.Net Fumiko.Program Fumiko.Storage

/-- Each new message is named once, and none of them is deleted on the same page. -/
structure DistinctIds (page : SyncPage) : Prop where
  new : page.newMessageIds.Nodup
  disjoint : ∀ id ∈ page.newMessageIds, id ∉ page.deletedMessageIds

theorem distinctIds_iff {page : SyncPage} (hdeleted : page.deletedMessageIds = []) :
    DistinctIds page ↔ page.newMessageIds.Nodup := by
  constructor
  · exact fun h => h.new
  · intro h
    exact ⟨h, by simp [hdeleted]⟩

theorem dedup_sorted {l : List String} (h : l.Pairwise (· ≤ ·)) : (dedup l).Pairwise (· < ·) := by
  induction l with
  | nil => exact .nil
  | cons a l ih =>
    cases l with
    | nil => exact List.pairwise_singleton _ a
    | cons b l =>
      have hrest := ih h.tail
      rw [dedup]
      split
      · exact hrest
      · next hne =>
        refine hrest.cons ?_
        intro c hc
        have hab : a < b := lt_of_le_of_ne (List.rel_of_pairwise_cons h List.mem_cons_self) hne
        cases List.mem_cons.mp (mem_dedup.mp hc) with
        | inl heq => exact heq ▸ hab
        | inr hmem => exact hab.trans_le (List.rel_of_pairwise_cons h.tail hmem)

namespace Gmail

variable {maxResults : Nat} {token : Option String} {ids all : List String}
  {ms rest : List GmailMoment} {page : SyncPage}

theorem dedup_sortUnstable_nodup (l : List String) : (dedup (sortUnstable l)).Nodup :=
  (dedup_sorted (List.pairwise_insertionSort _ l)).imp ne_of_lt

theorem Changes.page_distinct (c : Changes) : DistinctIds c.page where
  new := (dedup_sortUnstable_nodup c.new).filter _
  disjoint := by
    intro id hid hdeleted
    have hkept := (List.mem_filter.mp hid).2
    rw [decide_eq_true_eq] at hkept
    exact hkept (List.mem_dedup.mp hdeleted)

theorem incrementalSync_distinct {cursor : String}
    (h : incrementalSync cursor ms = (.ok page, rest)) : DistinctIds page := by
  obtain ⟨c, ms', -, hpage⟩ := bind_eq_ok.mp h
  cases hpage
  exact c.page_distinct

def listing (size : Nat) : Option String → List GmailMoment → List String
  | _, [] => []
  | token, m :: ms =>
    match (m.listMessages size token).json (listUrl size token) with
    | .error _ => []
    | .ok response =>
      match response.nextPageToken with
      | some next => listed response ++ listing size (some next) ms
      | none => listed response

theorem listInbox_take (h : listInbox maxResults token ids ids.length ms = (.ok all, rest)) :
    all.take maxResults = (ids ++ listing (min maxResults 500) token ms).take maxResults := by
  induction ms generalizing token ids with
  | nil => cases h
  | cons m ms ih =>
    cases hresponse : (m.listMessages (min maxResults 500) token).json
        (listUrl (min maxResults 500) token) with
    | error e =>
      simp only [listInbox, hresponse] at h
      cases h
    | ok response =>
      have hlisted : (response.messages.getD []).map MessageRefId.id = listed response := rfl
      cases hnext : response.nextPageToken with
      | none =>
        simp only [listInbox, hresponse, hnext, hlisted] at h
        cases h
        simp only [listing, hresponse, hnext]
      | some next =>
        simp only [listInbox, hresponse, hnext, hlisted, ← List.length_append] at h
        simp only [listing, hresponse, hnext]
        split at h
        · rw [ih h, List.append_assoc]
        · next hfull =>
          cases h
          rw [← List.append_assoc, List.take_append_of_le_length (not_lt.mp hfull)]

theorem initialSync_distinct_iff {options : SyncOptions}
    (h : initialSync options ms = (.ok page, rest)) :
    DistinctIds page ↔
      ((listing (min options.maxResults 500) none ms).take options.maxResults).Nodup := by
  obtain ⟨all, ms', hlist, h⟩ := bind_eq_ok.mp h
  obtain ⟨profile, ms'', -, hpage⟩ := bind_eq_ok.mp h
  cases hpage
  rw [distinctIds_iff rfl]
  dsimp only
  rw [listInbox_take hlist, List.nil_append]

end Gmail

namespace Outlook

variable {maxResults pagesLeft : Nat} {url link : String} {ids all : List String} {c c' : Changes}
  {items items' : List DeltaMessageItem} {ms rest rest' : List OutlookMoment} {page : SyncPage}

theorem Delivered.unique (h : Delivered url ms items rest) (h' : Delivered url ms items' rest') :
    items' = items := by
  induction h generalizing items' with
  | last hsend hraw hlink =>
    cases h' with
    | last hsend' hraw' hlink' =>
      cases hsend.symm.trans hsend'
      cases hraw.symm.trans hraw'
      rfl
    | more hsend' hraw' hlink' _ _ =>
      cases hsend.symm.trans hsend'
      cases hraw.symm.trans hraw'
      cases hlink.symm.trans hlink'
  | more hsend hraw hlink hnext _ ih =>
    cases h' with
    | last hsend' hraw' hlink' =>
      cases hsend.symm.trans hsend'
      cases hraw.symm.trans hraw'
      cases hlink.symm.trans hlink'
    | more hsend' hraw' hlink' hnext' hrest' =>
      cases hsend.symm.trans hsend'
      cases hraw.symm.trans hraw'
      cases hnext.symm.trans hnext'
      rw [ih hrest']

theorem readInitial_delivered
    (h : readInitial maxResults pagesLeft (some url) ids ms = (.ok (all, link), rest)) :
    ∃ items, Delivered url ms items rest ∧
      all = ids ++ (items.map (·.id)).take (maxResults - ids.length) := by
  induction pagesLeft generalizing url ids ms with
  | zero => cases h
  | succ pagesLeft ih =>
    obtain ⟨response, ms₁, hrequest, h⟩ := bind_eq_ok.mp h
    rw [mapError_eq_ok] at hrequest
    obtain ⟨hjson, hms⟩ := Prod.ext_iff.mp hrequest
    have hsend : sendRequestWithRetry (·.delta url) max429Retries ms =
        ((sendRequestWithRetry (·.delta url) max429Retries ms).1, ms₁) := Prod.ext rfl hms
    cases hlink : response.deltaLink with
    | some deltaLink =>
      rw [hlink] at h
      cases h
      exact ⟨response.value, .last hsend hjson hlink, rfl⟩
    | none =>
      rw [hlink] at h
      cases hnext : response.nextLink with
      | none =>
        rw [hnext] at h
        cases pagesLeft <;> cases h
      | some next =>
        rw [hnext] at h
        obtain ⟨items, hitems, rfl⟩ := ih h
        refine ⟨response.value ++ items, .more hsend hjson hlink hnext hitems, ?_⟩
        rw [List.append_assoc, List.map_append, List.take_append, List.length_append]
        simp only [List.length_take, List.length_map]
        congr 3
        omega

theorem initialSync_distinct_iff {options : SyncOptions}
    (h : initialSync options ms = (.ok page, rest)) :
    DistinctIds page ↔ ∃ items rest, Delivered (initialUrl options.maxResults) ms items rest ∧
      ((items.map (·.id)).take options.maxResults).Nodup := by
  obtain ⟨⟨all, link⟩, ms', hread, hpage⟩ := bind_eq_ok.mp h
  cases hpage
  obtain ⟨items, hitems, rfl⟩ := readInitial_delivered hread
  rw [distinctIds_iff rfl]
  constructor
  · exact fun hnodup => ⟨items, _, hitems, hnodup⟩
  · rintro ⟨items', rest', hitems', hnodup⟩
    exact hitems.unique hitems' ▸ hnodup

theorem readDelta_delivered
    (h : readDelta pagesLeft (some url) c ms = (.ok (c', link), rest)) :
    ∃ items, Delivered url ms items rest := by
  induction pagesLeft generalizing url c ms with
  | zero => cases h
  | succ pagesLeft ih =>
    cases hsend : sendRequestWithRetry (·.delta url) max429Retries ms with
    | mk raw ms₁ =>
      simp only [readDelta, hsend] at h
      split at h
      · cases h
      · cases hjson : raw.json url with
        | error e =>
          rw [hjson] at h
          cases h
        | ok response =>
          cases hlink : response.deltaLink with
          | some deltaLink =>
            simp only [hjson, hlink] at h
            cases h
            exact ⟨response.value, .last hsend hjson hlink⟩
          | none =>
            simp only [hjson, hlink] at h
            cases hnext : response.nextLink with
            | none =>
              rw [hnext] at h
              cases pagesLeft <;> cases h
            | some next =>
              rw [hnext] at h
              obtain ⟨items, hitems⟩ := ih h
              exact ⟨_, .more hsend hjson hlink hnext hitems⟩

theorem incrementalSync_distinct_iff {cursor : String}
    (h : incrementalSync cursor ms = (.ok page, rest)) :
    DistinctIds page ↔ ∃ items rest, Delivered cursor ms items rest ∧ (presentIds items).Nodup := by
  obtain ⟨⟨c, link⟩, ms', hread, -⟩ := bind_eq_ok.mp h
  obtain ⟨items, hitems⟩ := readDelta_delivered hread
  obtain ⟨hnew, -, -, hdeleted⟩ := hitems.incrementalSync h
  rw [distinctIds_iff hdeleted, hnew]
  constructor
  · exact fun hnodup => ⟨items, _, hitems, hnodup⟩
  · rintro ⟨items', rest', hitems', hnodup⟩
    exact hitems.unique hitems' ▸ hnodup

end Outlook

namespace Imap

variable {w w' : World} {page : SyncPage}

theorem discovered_distinct {validity highest : Nat} {uids : List Nat} (h : uids.Nodup) :
    DistinctIds (discovered validity highest uids) where
  new := (List.nodup_reverse.mpr h).map Decimal.repr_injective
  disjoint := by simp [discovered]

theorem initialSync_distinct {options : SyncOptions} (h : initialSync options w = (.ok page, w')) :
    DistinctIds page := by
  obtain ⟨session, w₁, -, h⟩ := bind_eq_ok.mp h
  obtain ⟨validity, w₂, -, h⟩ := bind_eq_ok.mp h
  obtain ⟨uids, w₃, hsearch, hpage⟩ := bind_eq_ok.mp h
  obtain ⟨found, -, rfl, -⟩ := uidSearch_eq_ok hsearch
  cases hpage
  exact discovered_distinct ((sortUids_nodup found.property).sublist (List.drop_sublist _ _))

theorem incrementalSync_distinct {cursor : String} (h : incrementalSync cursor w = (.ok page, w')) :
    DistinctIds page := by
  cases hcursor : parseCursor cursor with
  | none =>
    simp only [incrementalSync, hcursor] at h
    cases h
  | some parts =>
    obtain ⟨session, found, -, -, rfl⟩ := incrementalSync_eq_ok hcursor h
    exact discovered_distinct (sortUids_nodup (found.property.filter _))

end Imap

section Services

inductive MailService
  | gmail
  | outlook
  | imap (p : Imap.ImapProvider)

inductive Discovery
  | initial (options : SyncOptions)
  | incremental (cursor : String)

def MailService.provider : MailService → EmailProvider
  | .gmail => Gmail.provider
  | .outlook => Outlook.provider
  | .imap p => Imap.provider p

def MailService.sync (service : MailService) (accessToken : String) :
    Discovery → Program ProviderError SyncPage
  | .initial options => service.provider.initialSync accessToken options
  | .incremental cursor => service.provider.incrementalSync accessToken cursor

/-- The service lists no message twice among those the discovery has room for.  The history of
Gmail and the searches of IMAP may repeat what they like. -/
def MailService.ListsOnce (w : World) : MailService → Discovery → Prop
  | .gmail, .initial options =>
    ((Gmail.listing (min options.maxResults 500) none w.outside.gmail).take options.maxResults).Nodup
  | .outlook, .initial options => ∃ items rest,
    Outlook.Delivered (Outlook.initialUrl options.maxResults) w.outside.outlook items rest ∧
      ((items.map (·.id)).take options.maxResults).Nodup
  | .outlook, .incremental cursor => ∃ items rest,
    Outlook.Delivered cursor w.outside.outlook items rest ∧ (Outlook.presentIds items).Nodup
  | _, _ => True

theorem sync_distinct_iff {service : MailService} {discovery : Discovery} {accessToken : String}
    {w w' : World} {page : SyncPage} (h : service.sync accessToken discovery w = (.ok page, w')) :
    DistinctIds page ↔ service.ListsOnce w discovery := by
  cases service with
  | gmail =>
    cases discovery with
    | initial options => exact Gmail.initialSync_distinct_iff (onGmail_outcome h)
    | incremental cursor => exact iff_of_true (Gmail.incrementalSync_distinct (onGmail_outcome h)) trivial
  | outlook =>
    cases discovery with
    | initial options => exact Outlook.initialSync_distinct_iff (onOutlook_outcome h)
    | incremental cursor => exact Outlook.incrementalSync_distinct_iff (onOutlook_outcome h)
  | imap p =>
    cases discovery with
    | initial options => exact iff_of_true (Imap.initialSync_distinct h) trivial
    | incremental cursor => exact iff_of_true (Imap.incrementalSync_distinct h) trivial

end Services

section Example

def overlapMoment : GmailMoment where
  profile := .response 200 "OK" (.ok ⟨"me@gmail.com", "7"⟩)
  listMessages _ token := .response 200 "OK"
    (.ok (if token.isNone then ⟨some [⟨"m2"⟩, ⟨"m1"⟩], some "2"⟩ else ⟨some [⟨"m1"⟩, ⟨"m0"⟩], none⟩))
  history _ _ := .failed "timed out"
  message _ := .failed "timed out"
  fullMessage _ := .error .unauthorized

def overlapWorld : World where
  db := Db.empty
  keyring _ := none
  tokenCache := []
  journal := []
  outside := {
    gmail := [overlapMoment, overlapMoment, overlapMoment]
    outlook := [Outlook.deltaMoment [⟨"m1", none⟩, ⟨"m1", none⟩]] }

theorem sync_repeats :
    (∃ page w', MailService.gmail.sync "access" (.initial ⟨100⟩) overlapWorld = (.ok page, w') ∧
      ¬DistinctIds page) ∧
    (∃ page w', MailService.outlook.sync "access" (.initial ⟨100⟩) overlapWorld = (.ok page, w') ∧
      ¬DistinctIds page) ∧
    ∃ page w', MailService.outlook.sync "access" (.incremental "cursor") overlapWorld = (.ok page, w') ∧
      ¬DistinctIds page := by
  refine ⟨⟨_, _, rfl, ?_⟩, ⟨_, _, rfl, ?_⟩, _, _, rfl, ?_⟩
  all_goals
    intro h
    have hnodup := h.new
    revert hnodup
    decide

theorem sync_distinct_iff_example :
    DistinctIds ⟨["m2", "m1"], [], [], [], "7", false⟩ ↔
      MailService.gmail.ListsOnce overlapWorld (.initial ⟨2⟩) := by
  have hsync : MailService.gmail.sync "access" (.initial ⟨2⟩) overlapWorld =
      (.ok ⟨["m2", "m1"], [], [], [], "7", false⟩,
        (MailService.gmail.sync "access" (.initial ⟨2⟩) overlapWorld).2) := rfl
  exact sync_distinct_iff hsync

end Example

end Fumiko.EmailCore
