import Fumiko.EmailCore.GmailHistoryLaws

namespace Fumiko.EmailCore.Gmail

open Fumiko.Common Fumiko.Foundation Fumiko.Foundation.Action Fumiko.Net

def listed (response : ListMessagesResponse) : List String :=
  (response.messages.getD []).map MessageRefId.id

/-- The ids of the states of a mailbox, by the number of changes made so far. -/
structure HistoryIds where
  id : Nat → String
  injective : Function.Injective id

/-- The service at the moment of one request: what has arrived in the inbox so far, oldest
first, and how the answers show it.  A listing page is a part of the inbox, newest first; a
page that continues a listing starts below its top. -/
structure InboxMoment (ids : HistoryIds) where
  arrived : List String
  nodup : arrived.Nodup
  gmail : GmailMoment
  profile {url response} (h : gmail.profile.json url = .ok response) :
    response.historyId = ids.id arrived.length
  firstPage {size url response} (h : (gmail.listMessages size none).json url = .ok response) :
    ∃ count, listed response = arrived.reverse.take count
  nextPage {size token url response}
    (h : (gmail.listMessages size (some token)).json url = .ok response) :
    ∃ skipped count, listed response = (arrived.reverse.drop (skipped + 1)).take count

def ShowsArrivals (ids : HistoryIds) (cursor : String) (arrived : List String)
    (records : List HistoryRecord) : Prop :=
  ∀ n, cursor = ids.id n → (∀ id, id ∈ records.flatMap HistoryRecord.added ↔ id ∈ arrived.drop n) ∧
    records.flatMap HistoryRecord.deleted = []

/-- Whatever has arrived since the first page was served, and whenever the next pass asks for
the history: it is in one of the two pages. -/
def LeavesNoGap (ids : HistoryIds) (before profile : List String) (page : SyncPage) : Prop :=
  ∀ arrived : List String, arrived.Nodup → profile <+: arrived →
    ∀ ms records rest next, Served page.nextCursor none ms records rest →
      ShowsArrivals ids page.nextCursor arrived records →
      incrementalSync page.nextCursor ms = (.ok next, rest) →
      ∀ id ∈ arrived.drop before.length, id ∈ page.newMessageIds ∨ id ∈ next.newMessageIds

section Listing

variable {maxResults totalFetched : Nat} {ids all : List String} {ms rest : List GmailMoment}

def Continues (id : String) (m : GmailMoment) : Prop :=
  ∃ size token url response,
    (m.listMessages size (some token)).json url = .ok response ∧ id ∈ listed response

theorem listInbox_next {token : String}
    (h : listInbox maxResults (some token) ids totalFetched ms = (.ok all, rest)) :
    ∃ used, ms = used ++ rest ∧ ∀ id ∈ all, id ∈ ids ∨ ∃ m ∈ used, Continues id m := by
  induction ms generalizing token ids totalFetched with
  | nil => cases h
  | cons m ms ih =>
    rw [listInbox] at h
    split at h
    · cases h
    · next response hresponse =>
      have hpage (id : String) (hid : id ∈ listed response) : Continues id m :=
        ⟨_, _, _, _, hresponse, hid⟩
      have hdone (heq : (.ok (ids ++ listed response), ms) = ((.ok all, rest) : Except ProviderError _ × _)) :
          ∃ used, m :: ms = used ++ rest ∧ ∀ id ∈ all, id ∈ ids ∨ ∃ m ∈ used, Continues id m := by
        cases heq
        refine ⟨[m], rfl, ?_⟩
        intro id hid
        exact (List.mem_append.mp hid).imp_right fun hid => ⟨m, List.mem_cons_self, hpage id hid⟩
      dsimp only at h
      split at h
      · split at h
        · obtain ⟨used, hused, hall⟩ := ih h
          refine ⟨m :: used, by rw [hused]; rfl, ?_⟩
          intro id hid
          rcases hall id hid with hid | ⟨m', hm', hid⟩
          · exact (List.mem_append.mp hid).imp_right fun hid => ⟨m, List.mem_cons_self, hpage id hid⟩
          · exact Or.inr ⟨m', List.mem_cons_of_mem _ hm', hid⟩
        · exact hdone h
      · exact hdone h

theorem listInbox_first {m : GmailMoment}
    (h : listInbox maxResults none [] 0 (m :: ms) = (.ok all, rest)) :
    ∃ response url used, (m.listMessages (min maxResults 500) none).json url = .ok response ∧
      ms = used ++ rest ∧ ∀ id ∈ all, id ∈ listed response ∨ ∃ m' ∈ used, Continues id m' := by
  rw [listInbox] at h
  split at h
  · cases h
  · next response hresponse =>
    refine ⟨response, listUrl (min maxResults 500) none, ?_⟩
    dsimp only at h
    split at h
    · split at h
      · obtain ⟨used, hused, hall⟩ := listInbox_next h
        exact ⟨used, hresponse, hused, hall⟩
      · cases h
        exact ⟨[], hresponse, rfl, fun id hid => Or.inl hid⟩
    · cases h
      exact ⟨[], hresponse, rfl, fun id hid => Or.inl hid⟩

end Listing

section Baseline

variable {ids : HistoryIds} {first profile : InboxMoment ids} {between : List (InboxMoment ids)}
  {options : SyncOptions} {page : SyncPage} {rest : List GmailMoment}

structure Baseline (first profile : InboxMoment ids) (between : List (InboxMoment ids))
    (page : SyncPage) : Prop where
  cursor : page.nextCursor = ids.id profile.arrived.length
  shown : ∀ id ∈ page.newMessageIds, id ∈ first.arrived ∨
    ∃ m ∈ between, ∃ skipped, id ∈ m.arrived.reverse.drop (skipped + 1)

theorem initialSync_baseline
    (hsync : initialSync options
      ((first :: between).map InboxMoment.gmail ++ profile.gmail :: rest) = (.ok page, rest)) :
    Baseline first profile between page := by
  obtain ⟨all, left, hlist, hsync⟩ := bind_eq_ok.mp hsync
  obtain ⟨response, left', hprofile, hpage⟩ := bind_eq_ok.mp hsync
  cases hpage
  have hprofile := mapError_eq_ok.mp hprofile
  obtain ⟨listing, url, used, hfirst, hused, hall⟩ := listInbox_first hlist
  cases left with
  | nil => cases hprofile
  | cons m left =>
    rw [request] at hprofile
    obtain ⟨hjson, rfl⟩ := Prod.mk.inj hprofile
    -- The listing leaves one moment more than the whole, so it has used those in between.
    have hused : between.map InboxMoment.gmail ++ profile.gmail :: left = used ++ m :: left := hused
    have hlength := congrArg List.length hused
    simp only [List.length_append, List.length_cons, Nat.add_right_cancel_iff] at hlength
    obtain ⟨hbetween, hleft⟩ := List.append_inj hused hlength
    cases hleft
    refine ⟨profile.profile hjson, ?_⟩
    intro id hid
    rcases hall id (List.mem_of_mem_take hid) with hid | ⟨m, hm, size, token, url, response, hjson, hid⟩
    · obtain ⟨count, hshows⟩ := first.firstPage hfirst
      rw [hshows] at hid
      exact Or.inl (List.mem_reverse.mp (List.mem_of_mem_take hid))
    · rw [← hbetween] at hm
      obtain ⟨moment, hmoment, rfl⟩ := List.mem_map.mp hm
      obtain ⟨skipped, count, hshows⟩ := moment.nextPage hjson
      rw [hshows] at hid
      exact Or.inr ⟨moment, hmoment, skipped, List.mem_of_mem_take hid⟩

theorem not_mem_drop_of_newest {before arrived : List String} {newest : String} {skipped : Nat}
    (hnodup : (before ++ [newest]).Nodup) (hwithin : arrived <+: before ++ [newest]) :
    newest ∉ arrived.reverse.drop (skipped + 1) := by
  have hnewest : newest ∉ before := by
    intro hmem
    exact (List.disjoint_of_nodup_append hnodup) hmem List.mem_cons_self
  intro hmem
  rcases List.prefix_concat_iff.mp hwithin with rfl | hwithin
  · rw [List.reverse_append] at hmem
    exact hnewest (List.mem_reverse.mp (List.mem_of_mem_drop hmem))
  · exact hnewest (hwithin.subset (List.mem_reverse.mp (List.mem_of_mem_drop hmem)))

def quietMoment : GmailMoment where
  profile := .failed "timed out"
  listMessages _ _ := .failed "timed out"
  history _ _ := .response 200 "OK" (.ok ⟨none, "", none⟩)
  message _ := .failed "timed out"
  fullMessage _ := .error .unauthorized

theorem Baseline.newest_missed (h : Baseline first profile between page)
    (hgrows : ∀ m ∈ between, m.arrived <+: profile.arrived) {before : List String} {newest : String}
    (hprofile : profile.arrived = before ++ [newest]) (hfirst : first.arrived <+: before) :
    newest ∉ page.newMessageIds := by
  have hnodup := hprofile ▸ profile.nodup
  intro hmem
  rcases h.shown newest hmem with hmem | ⟨m, hm, skipped, hmem⟩
  · exact List.disjoint_of_nodup_append hnodup (hfirst.subset hmem) List.mem_cons_self
  · exact not_mem_drop_of_newest hnodup (hprofile ▸ hgrows m hm) hmem

theorem quietMoment_served (cursor : String) : Served cursor none [quietMoment] [] [] := by
  have hquiet : (quietMoment.history cursor none).json (historyUrl cursor none) =
      .ok ⟨none, "", none⟩ := rfl
  exact .last hquiet fun _ h => by cases h

theorem Baseline.leavesNoGap (h : Baseline first profile between page) :
    LeavesNoGap ids profile.arrived profile.arrived page := by
  intro arrived _ _ ms records rest next hserved hshows hsync id hid
  obtain ⟨hadded, hdeleted⟩ := hshows _ h.cursor
  obtain ⟨page', hsync', hreports⟩ := hserved.incrementalSync
  rw [hsync] at hsync'
  cases hsync'
  right
  rw [hreports.mem_new, hdeleted]
  exact ⟨(hadded id).mpr hid, List.not_mem_nil⟩

end Baseline

/-- The baseline leaves no gap exactly when nothing arrives between the request for the first
page and the request for the profile. -/
theorem initialSync_leavesNoGap_iff {ids : HistoryIds} {first profile : InboxMoment ids}
    {between : List (InboxMoment ids)} {options : SyncOptions} {page : SyncPage}
    {rest : List GmailMoment}
    (hgrows : (first :: between ++ [profile]).Pairwise (·.arrived <+: ·.arrived))
    (hsync : initialSync options
      ((first :: between).map InboxMoment.gmail ++ profile.gmail :: rest) = (.ok page, rest)) :
    LeavesNoGap ids first.arrived profile.arrived page ↔ profile.arrived = first.arrived := by
  have hbaseline := initialSync_baseline hsync
  obtain ⟨-, -, hbefore⟩ := List.pairwise_append.mp hgrows
  have hbefore (m : InboxMoment ids) (hm : m ∈ first :: between) : m.arrived <+: profile.arrived :=
    hbefore m hm profile List.mem_cons_self
  constructor
  · intro hgap
    by_contra hne
    obtain ⟨new, hnew⟩ := hbefore first List.mem_cons_self
    obtain ⟨earlier, newest, rfl⟩ : ∃ earlier newest, new = earlier ++ [newest] := by
      rcases List.eq_nil_or_concat new with rfl | ⟨earlier, newest, rfl⟩
      · exact absurd (by rw [← hnew, List.append_nil]) hne
      · exact ⟨earlier, newest, List.concat_eq_append⟩
    have hprofile : profile.arrived = (first.arrived ++ earlier) ++ [newest] := by
      rw [← hnew, List.append_assoc]
    -- The history is asked for at once, so that it has nothing to report.
    have hshows : ShowsArrivals ids page.nextCursor profile.arrived [] := by
      intro n hn
      have hn : n = profile.arrived.length := ids.injective (hn.symm.trans hbaseline.cursor)
      simp [hn]
    obtain ⟨next, hnext, hreports⟩ := (quietMoment_served page.nextCursor).incrementalSync
    rcases hgap _ profile.nodup (List.prefix_refl _) _ _ _ _ (quietMoment_served _) hshows hnext newest
      (by simp [← hnew]) with hmem | hmem
    · exact hbaseline.newest_missed (fun m hm => hbefore m (List.mem_cons_of_mem _ hm)) hprofile
        (List.prefix_append _ _) hmem
    · simp [hreports.mem_new] at hmem
  · intro heq
    rw [← heq]
    exact hbaseline.leavesNoGap

section Example

def exampleIds : HistoryIds where
  id := Nat.repr
  injective := Decimal.repr_injective

def inboxMoment (arrived : List String) (nodup : arrived.Nodup) : InboxMoment exampleIds where
  arrived
  nodup
  gmail := {
    profile := .response 200 "OK" (.ok ⟨"me@gmail.com", Nat.repr arrived.length⟩)
    listMessages := fun _ token => match token with
      | none => .response 200 "OK" (.ok ⟨some (arrived.reverse.map MessageRefId.mk), none⟩)
      | some _ => .response 200 "OK" (.ok ⟨none, none⟩)
    history := fun _ _ => .response 200 "OK" (.ok ⟨none, "", none⟩)
    message := fun _ => .failed "timed out"
    fullMessage := fun _ => .error .unauthorized }
  profile h := by
    cases h
    rfl
  firstPage h := by
    cases h
    exact ⟨arrived.length, by simp [listed, Function.comp_def]⟩
  nextPage h := by
    cases h
    exact ⟨0, 0, rfl⟩

def firstMoment : InboxMoment exampleIds := inboxMoment ["m1"] (by decide)

def profileMoment : InboxMoment exampleIds := inboxMoment ["m1", "m2"] (by decide)

def gapPage : SyncPage := ⟨["m1"], [], [], [], "2", false⟩

theorem gapPage_sync :
    initialSync ⟨100⟩ ([firstMoment].map InboxMoment.gmail ++ profileMoment.gmail :: []) =
      (.ok gapPage, []) := rfl

theorem example_grows : ([firstMoment] ++ [profileMoment]).Pairwise (·.arrived <+: ·.arrived) := by
  apply List.pairwise_pair.mpr
  exact ⟨["m2"], rfl⟩

theorem initialSync_leaves_gap :
    ¬∀ (first profile : InboxMoment exampleIds) (between : List (InboxMoment exampleIds))
      (options : SyncOptions) (page : SyncPage) (rest : List GmailMoment),
      (first :: between ++ [profile]).Pairwise (·.arrived <+: ·.arrived) →
      initialSync options ((first :: between).map InboxMoment.gmail ++ profile.gmail :: rest) =
        (.ok page, rest) →
      LeavesNoGap exampleIds first.arrived profile.arrived page := by
  intro h
  have hgap := h firstMoment profileMoment [] ⟨100⟩ gapPage [] example_grows gapPage_sync
  obtain ⟨next, hnext, hreports⟩ := (quietMoment_served "2").incrementalSync
  have hshows : ShowsArrivals exampleIds "2" ["m1", "m2"] [] := by
    intro n hn
    have hn : n = 2 := Decimal.repr_injective (hn.symm.trans (show "2" = Nat.repr 2 from rfl))
    simp [hn]
  rcases hgap _ profileMoment.nodup (List.prefix_refl _) _ _ _ _ (quietMoment_served "2") hshows hnext
    "m2" List.mem_cons_self with hmem | hmem
  · exact absurd hmem (by decide)
  · simp [hreports.mem_new] at hmem

theorem initialSync_leavesNoGap_iff_example :
    LeavesNoGap exampleIds ["m1"] ["m1", "m2"] gapPage ↔ ["m1", "m2"] = ["m1"] :=
  initialSync_leavesNoGap_iff example_grows gapPage_sync

end Example

end Fumiko.EmailCore.Gmail
