import Fumiko.EmailCore.OutlookPagingLaws
import Fumiko.Foundation.Answering

namespace Fumiko.EmailCore

open Fumiko.Common Fumiko.Foundation Fumiko.Foundation.Action Fumiko.Net

namespace Outlook

variable {α : Type}

theorem sendRequestWithRetry_asks (ask : OutlookMoment → HttpReply α) (retries : ℕ)
    (s : ℕ → OutlookMoment) : ∃ k ≤ retries + 1, ∃ reply,
      ∀ later, sendRequestWithRetry ask retries (first s k ++ later) = (reply, later) := by
  induction retries generalizing s with
  | zero => exact ⟨1, le_rfl, ask (s 0), fun later => rfl⟩
  | succ retries ih =>
    by_cases h429 : (ask (s 0)).status = some 429
    · obtain ⟨k, hk, reply, hreply⟩ := ih fun i => s (1 + i)
      refine ⟨1 + k, by omega, reply, ?_⟩
      intro later
      rw [first_add, List.append_assoc]
      change sendRequestWithRetry ask (retries + 1) (s 0 :: (first (fun i => s (1 + i)) k ++ later)) = _
      rw [sendRequestWithRetry, if_pos h429]
      exact hreply later
    · refine ⟨1, by omega, ask (s 0), ?_⟩
      intro later
      change sendRequestWithRetry ask (retries + 1) (s 0 :: later) = _
      rw [sendRequestWithRetry, if_neg h429]

def maxAnswers : ℕ := max429Retries + 1

theorem stopsWithin_fetchInitial (url : String) (s : ℕ → OutlookMoment) :
    StopsWithin (fetchInitial url) s maxAnswers := by
  apply StopsWithin.mapError
  obtain ⟨k, hk, reply, hreply⟩ := sendRequestWithRetry_asks (·.delta url) max429Retries s
  refine ⟨k, hk, reply.json url, ?_⟩
  intro later
  simp only [request, hreply]

theorem stopsWithin_fetchDelta (url : String) (s : ℕ → OutlookMoment) :
    StopsWithin (fetchDelta url) s maxAnswers := by
  obtain ⟨k, hk, reply, hreply⟩ := sendRequestWithRetry_asks (·.delta url) max429Retries s
  by_cases hgone : reply.status = some 410
  · refine ⟨k, hk, .error .cursorExpired, ?_⟩
    intro later
    simp only [fetchDelta, hreply, hgone, if_true]
  · refine ⟨k, hk, (reply.json url).mapError .ofReqwest, ?_⟩
    intro later
    simp only [fetchDelta, hreply, hgone, if_false]
    cases reply.json url <;> rfl

theorem stopsWithin_initialSync (options : SyncOptions) (s : ℕ → OutlookMoment) :
    StopsWithin (initialSync options) s (maxAnswers * maxInitialSyncPages) := by
  rw [initialSync, readInitial_eq_read]
  exact (stopsWithin_read (L := initialListing) stopsWithin_fetchInitial _ _ _ _).map

theorem stopsWithin_incrementalSync (cursor : String) (s : ℕ → OutlookMoment) :
    StopsWithin (incrementalSync cursor) s (maxAnswers * maxInitialSyncPages) := by
  rw [incrementalSync, readDelta_eq_read]
  exact (stopsWithin_read (L := incrementalListing) stopsWithin_fetchDelta _ _ _ _).map

end Outlook

namespace Gmail

variable {maxResults n : ℕ} {cursor : String} {s : ℕ → GmailMoment}

section Listing

def listPage (maxResults : ℕ) (token : Option String) (m : GmailMoment) : Option ListMessagesResponse :=
  ((m.listMessages (min maxResults 500) token).json (listUrl (min maxResults 500) token)).toOption

/-- The token of the request number `i`, as the page before hands it on. -/
def listToken (maxResults : ℕ) (s : ℕ → GmailMoment) : ℕ → Option String
  | 0 => none
  | i + 1 => (listPage maxResults (listToken maxResults s i) (s i)).bind (·.nextPageToken)

/-- The messages on the page number `i`. -/
def listedAt (maxResults : ℕ) (s : ℕ → GmailMoment) (i : ℕ) : List String :=
  (listPage maxResults (listToken maxResults s i) (s i)).elim [] fun response =>
    (response.messages.getD []).map MessageRefId.id

/-- All messages on the pages before number `i`. -/
def listedBefore (maxResults : ℕ) (s : ℕ → GmailMoment) (i : ℕ) : List String :=
  (List.range i).flatMap (listedAt maxResults s)

theorem listedBefore_succ (maxResults : ℕ) (s : ℕ → GmailMoment) (i : ℕ) :
    listedBefore maxResults s (i + 1) = listedBefore maxResults s i ++ listedAt maxResults s i := by
  simp [listedBefore, List.range_succ]

/-- The listing goes no further than page number `i`: it hands on no token, or there are
enough messages. -/
def ListEnds (maxResults : ℕ) (s : ℕ → GmailMoment) (i : ℕ) : Prop :=
  listToken maxResults s (i + 1) = none ∨ maxResults ≤ (listedBefore maxResults s (i + 1)).length

def listTurn (maxResults : ℕ) (s : ℕ → GmailMoment) (i : ℕ) :
    Action (List GmailMoment) ProviderError (List String) :=
  listInbox maxResults (listToken maxResults s i) (listedBefore maxResults s i)
    (listedBefore maxResults s i).length

theorem listTurn_end {i : ℕ} (h : ListEnds maxResults s i) :
    ∃ r, (∀ later, listTurn maxResults s i (s i :: later) = (r, later)) ∧
      ((∃ e, r = .error e) ↔ listPage maxResults (listToken maxResults s i) (s i) = none) := by
  rw [ListEnds, listedBefore_succ, List.length_append] at h
  cases hjson : ((s i).listMessages (min maxResults 500) (listToken maxResults s i)).json
      (listUrl (min maxResults 500) (listToken maxResults s i)) with
  | error e =>
    have hpage : listPage maxResults (listToken maxResults s i) (s i) = none := by
      rw [listPage, hjson]
      rfl
    refine ⟨.error (.ofReqwest e), ?_, by simp [hpage]⟩
    intro later
    simp only [listTurn, listInbox, hjson]
  | ok response =>
    have hpage : listPage maxResults (listToken maxResults s i) (s i) = some response := by
      rw [listPage, hjson]
      rfl
    refine ⟨.ok (listedBefore maxResults s i ++ (response.messages.getD []).map MessageRefId.id), ?_,
      by simp [hpage]⟩
    intro later
    simp only [listToken, listedAt, hpage, Option.bind_some, Option.elim_some] at h
    simp only [listTurn, listInbox, hjson]
    cases hnext : response.nextPageToken with
    | none => rfl
    | some token =>
      rw [hnext] at h
      have hfull := h.resolve_left (by simp)
      dsimp only
      rw [if_neg (not_lt.mpr hfull)]

theorem listTurn_next {i : ℕ} (h : ¬ ListEnds maxResults s i) (later : List GmailMoment) :
    listTurn maxResults s i (s i :: later) = listTurn maxResults s (i + 1) later := by
  rw [ListEnds, listedBefore_succ, List.length_append, not_or, not_le] at h
  obtain ⟨htoken, hcount⟩ := h
  cases hjson : ((s i).listMessages (min maxResults 500) (listToken maxResults s i)).json
      (listUrl (min maxResults 500) (listToken maxResults s i)) with
  | error e =>
    have hpage : listPage maxResults (listToken maxResults s i) (s i) = none := by
      rw [listPage, hjson]
      rfl
    rw [listToken, hpage] at htoken
    exact absurd rfl htoken
  | ok response =>
    have hpage : listPage maxResults (listToken maxResults s i) (s i) = some response := by
      rw [listPage, hjson]
      rfl
    cases hnext : response.nextPageToken with
    | none =>
      rw [listToken, hpage, Option.bind_some, hnext] at htoken
      exact absurd rfl htoken
    | some token =>
      simp only [listedAt, hpage, Option.elim_some] at hcount
      simp only [listTurn, listInbox, hjson, hnext, hcount, if_true, listToken, listedBefore_succ,
        listedAt, hpage, Option.bind_some, Option.elim_some, List.length_append]

/-- The page number `i` is not fetched. -/
def Unlisted (maxResults : ℕ) (s : ℕ → GmailMoment) (i : ℕ) : Prop :=
  listPage maxResults (listToken maxResults s i) (s i) = none

theorem Unlisted.ends {i : ℕ} (h : Unlisted maxResults s i) : ListEnds maxResults s i := by
  apply Or.inl
  rw [listToken, h]
  rfl

theorem listInbox_asks {k : ℕ} (hbefore : ∀ i < k, ¬ ListEnds maxResults s i)
    (hends : ListEnds maxResults s k) : ∃ r, Asks (listInbox maxResults none [] 0) (first s (k + 1)) r ∧
      ((∃ e, r = .error e) ↔ Unlisted maxResults s k) := by
  obtain ⟨r, hr, herror⟩ := listTurn_end hends
  have hlist : Asks (listTurn maxResults s 0) (first s (k + 1)) r :=
    turns_asks (fun i hi => listTurn_next (hbefore i hi)) hr
  exact ⟨r, hlist, herror⟩

theorem fetchGmailProfile_asks (m : GmailMoment) :
    Asks fetchGmailProfile [m] ((m.profile.json profileUrl).mapError .ofReqwest) := by
  have hrequest : Asks (request profileUrl GmailMoment.profile) [m] (m.profile.json profileUrl) :=
    fun _ => rfl
  exact hrequest.mapError

theorem initialSync_asks {options : SyncOptions} {k : ℕ}
    (hbefore : ∀ i < k, ¬ ListEnds options.maxResults s i) (hends : ListEnds options.maxResults s k) :
    (Unlisted options.maxResults s k → ∃ r, Asks (initialSync options) (first s (k + 1)) r) ∧
      (¬ Unlisted options.maxResults s k → ∃ r, Asks (initialSync options) (first s (k + 2)) r) := by
  obtain ⟨r, hlist, herror⟩ := listInbox_asks hbefore hends
  constructor
  · intro hpage
    obtain ⟨e, rfl⟩ := herror.mpr hpage
    exact ⟨_, hlist.bind_error⟩
  · intro hpage
    cases r with
    | error e => exact absurd (herror.mp ⟨e, rfl⟩) hpage
    | ok ids =>
      rw [first_succ]
      exact ⟨_, hlist.bind (fetchGmailProfile_asks _).map⟩

theorem initialSync_dry {options : SyncOptions} (h : ∀ i, ¬ ListEnds options.maxResults s i) (k : ℕ) :
    (initialSync options (first s k)).2 = [] := by
  have hlist : listTurn options.maxResults s 0 (first s k ++ []) = listTurn options.maxResults s k [] :=
    turns_run (listTurn options.maxResults s) (fun i _ => listTurn_next (h i)) []
  rw [List.append_nil] at hlist
  change listInbox options.maxResults none [] 0 (first s k) = _ at hlist
  rw [initialSync, bind_run, hlist]
  rfl

theorem stopsWithin_initialSync_iff (options : SyncOptions) (s : ℕ → GmailMoment) (n : ℕ) :
    StopsWithin (initialSync options) s n ↔ ∃ k, (Unlisted options.maxResults s k ∧ k < n) ∨
      (ListEnds options.maxResults s k ∧ k + 1 < n) := by
  classical
  by_cases hsome : ∃ k, ListEnds options.maxResults s k
  · have hmin {k : ℕ} (h : ListEnds options.maxResults s k) : Nat.find hsome ≤ k := Nat.find_min' hsome h
    have hends := Nat.find_spec hsome
    obtain ⟨hfailed, hlisted⟩ := initialSync_asks (fun i => Nat.find_min hsome) hends
    generalize Nat.find hsome = k₀ at *
    by_cases hpage : Unlisted options.maxResults s k₀
    · obtain ⟨r, hr⟩ := hfailed hpage
      rw [stopsWithin_iff_of_asks hr]
      constructor
      · exact fun hn => ⟨k₀, Or.inl ⟨hpage, hn⟩⟩
      · rintro ⟨k, ⟨h, hk⟩ | ⟨h, hk⟩⟩
        · exact lt_of_le_of_lt (hmin h.ends) hk
        · exact lt_of_le_of_lt (hmin h) (Nat.lt_of_succ_lt hk)
    · obtain ⟨r, hr⟩ := hlisted hpage
      rw [stopsWithin_iff_of_asks hr]
      constructor
      · exact fun hn => ⟨k₀, Or.inr ⟨hends, hn⟩⟩
      · rintro ⟨k, ⟨h, hk⟩ | ⟨h, hk⟩⟩
        · have hne : k₀ ≠ k := fun heq => hpage (heq ▸ h)
          have hle := hmin h.ends
          omega
        · have hle := hmin h
          omega
  · have hnone : ∀ k, ¬ ListEnds options.maxResults s k := not_exists.mp hsome
    constructor
    · exact fun h => absurd h (not_stopsWithin_of_dry (initialSync_dry hnone))
    · rintro ⟨k, ⟨h, -⟩ | ⟨h, -⟩⟩
      · exact absurd h.ends (hnone k)
      · exact absurd h (hnone k)

end Listing

section History

def historyPage (cursor : String) (token : Option String) (m : GmailMoment) : Option HistoryListResponse :=
  ((m.history cursor token).json (historyUrl cursor token)).toOption

/-- The token of the request number `i`: an empty one counts as none. -/
def historyToken (cursor : String) (s : ℕ → GmailMoment) : ℕ → Option String
  | 0 => none
  | i + 1 => ((historyPage cursor (historyToken cursor s i) (s i)).bind (·.nextPageToken)).filter
    (!·.isEmpty)

def Changes.addPage (c : Changes) (response : HistoryListResponse) : Changes :=
  (response.history.getD []).foldl Changes.add
    (if response.historyId.isEmpty then c else { c with historyId := response.historyId })

def changesBefore (cursor : String) (s : ℕ → GmailMoment) : ℕ → Changes
  | 0 => ⟨[], [], [], [], cursor⟩
  | i + 1 => (historyPage cursor (historyToken cursor s i) (s i)).elim (changesBefore cursor s i)
    (changesBefore cursor s i).addPage

def historyTurn (cursor : String) (s : ℕ → GmailMoment) (i : ℕ) :
    Action (List GmailMoment) ProviderError SyncPage :=
  readHistory cursor (historyToken cursor s i) (changesBefore cursor s i) >>= fun c => pure c.page

theorem historyPage_eq_some {token : Option String} {m : GmailMoment} {response : HistoryListResponse}
    (h : (m.history cursor token).json (historyUrl cursor token) = .ok response) :
    historyPage cursor token m = some response := by
  rw [historyPage, h]
  rfl

theorem historyTurn_end {i : ℕ} (h : historyToken cursor s (i + 1) = none) :
    ∃ r, ∀ later, historyTurn cursor s i (s i :: later) = (r, later) := by
  cases hjson : ((s i).history cursor (historyToken cursor s i)).json
      (historyUrl cursor (historyToken cursor s i)) with
  | error e =>
    by_cases hexpired : ((s i).history cursor (historyToken cursor s i)).status = some 404
    · refine ⟨.error .cursorExpired, ?_⟩
      intro later
      simp only [historyTurn, bind_run, readHistory, hexpired, if_true]
    · refine ⟨.error (.ofReqwest e), ?_⟩
      intro later
      simp only [historyTurn, bind_run, readHistory, hexpired, if_false, hjson]
  | ok response =>
    have hfound := HttpReply.status_of_json hjson (by decide : 400 ≤ 404 ∧ 404 < 600)
    refine ⟨.ok ((changesBefore cursor s i).addPage response).page, ?_⟩
    intro later
    rw [historyToken, historyPage_eq_some hjson, Option.bind_some] at h
    cases hnext : response.nextPageToken with
    | none =>
      simp only [historyTurn, bind_run, readHistory, hfound, if_false, hjson, hnext, pure_run]
      rfl
    | some token =>
      rw [hnext] at h
      have hempty : token.isEmpty := by simpa using h
      simp only [historyTurn, bind_run, readHistory, hfound, if_false, hjson, hnext, hempty, if_true,
        pure_run]
      rfl

theorem historyTurn_next {i : ℕ} (h : historyToken cursor s (i + 1) ≠ none) (later : List GmailMoment) :
    historyTurn cursor s i (s i :: later) = historyTurn cursor s (i + 1) later := by
  cases hjson : ((s i).history cursor (historyToken cursor s i)).json
      (historyUrl cursor (historyToken cursor s i)) with
  | error e =>
    rw [historyToken, historyPage, hjson] at h
    exact absurd rfl h
  | ok response =>
    have hfound := HttpReply.status_of_json hjson (by decide : 400 ≤ 404 ∧ 404 < 600)
    have hpage := historyPage_eq_some hjson
    rw [historyToken, hpage, Option.bind_some] at h
    cases hnext : response.nextPageToken with
    | none =>
      rw [hnext] at h
      exact absurd rfl h
    | some token =>
      rw [hnext] at h
      have hempty : token.isEmpty = false := by simpa using h
      have htoken : historyToken cursor s (i + 1) = some token := by
        rw [historyToken, hpage, Option.bind_some, hnext]
        simp [hempty]
      simp only [historyTurn, htoken, bind_run, readHistory, hfound, if_false, hjson, hnext, hempty,
        Bool.false_eq_true, changesBefore, hpage, Option.elim_some]
      rfl

theorem stopsWithin_incrementalSync_iff (cursor : String) (s : ℕ → GmailMoment) (n : ℕ) :
    StopsWithin (incrementalSync cursor) s n ↔ ∃ k < n, historyToken cursor s (k + 1) = none := by
  change StopsWithin (historyTurn cursor s 0) s n ↔ _
  exact stopsWithin_turns_iff (fun _ => historyTurn_next) (fun _ => historyTurn_end) fun _ => rfl

end History

section Endless

def anotherPage : GmailMoment where
  profile := .response 200 "OK" (.ok ⟨"me@example.com", "1"⟩)
  listMessages _ _ := .response 200 "OK" (.ok ⟨none, some "next"⟩)
  history _ _ := .response 200 "OK" (.ok ⟨none, "1", some "next"⟩)
  message _ := .failed closed
  fullMessage _ := .error .cursorExpired

theorem listedBefore_anotherPage (maxResults i : ℕ) :
    listedBefore maxResults (fun _ => anotherPage) i = [] := by
  induction i with
  | zero => rfl
  | succ i ih =>
    rw [listedBefore_succ, ih]
    rfl

theorem initialSync_endless (n : ℕ) : ¬ StopsWithin (initialSync ⟨50⟩) (fun _ => anotherPage) n := by
  have hends (k : ℕ) : ¬ ListEnds 50 (fun _ => anotherPage) k := by
    rintro (htoken | hcount)
    · cases htoken
    · rw [listedBefore_anotherPage] at hcount
      exact absurd hcount (by decide)
  rw [stopsWithin_initialSync_iff]
  rintro ⟨k, ⟨h, -⟩ | ⟨h, -⟩⟩
  · exact hends k h.ends
  · exact hends k h

theorem incrementalSync_endless (n : ℕ) :
    ¬ StopsWithin (incrementalSync "1") (fun _ => anotherPage) n := by
  rw [stopsWithin_incrementalSync_iff]
  rintro ⟨k, -, htoken⟩
  exact absurd htoken (Option.some_ne_none "next")

theorem gmail_discovery_endless :
    (∀ n, ¬ StopsWithin (initialSync ⟨50⟩) (fun _ => anotherPage) n) ∧
      ∀ n, ¬ StopsWithin (incrementalSync "1") (fun _ => anotherPage) n :=
  ⟨initialSync_endless, incrementalSync_endless⟩

end Endless

end Gmail

/-- The discovery over Outlook always stops.  The one over Gmail stops within `n` requests exactly
when its pages run out of tokens, one of them is not fetched, or enough messages have been
listed in time. -/
theorem discovery_stopsWithin_iff (n : ℕ) :
    (∀ options s, StopsWithin (Outlook.initialSync options) s
      (Outlook.maxAnswers * Outlook.maxInitialSyncPages)) ∧
    (∀ cursor s, StopsWithin (Outlook.incrementalSync cursor) s
      (Outlook.maxAnswers * Outlook.maxInitialSyncPages)) ∧
    (∀ options s, StopsWithin (Gmail.initialSync options) s n ↔
      ∃ k, (Gmail.Unlisted options.maxResults s k ∧ k < n) ∨
        (Gmail.ListEnds options.maxResults s k ∧ k + 1 < n)) ∧
    ∀ cursor s, StopsWithin (Gmail.incrementalSync cursor) s n ↔
      ∃ k < n, Gmail.historyToken cursor s (k + 1) = none :=
  ⟨Outlook.stopsWithin_initialSync, Outlook.stopsWithin_incrementalSync,
    fun options s => Gmail.stopsWithin_initialSync_iff options s n,
    fun cursor s => Gmail.stopsWithin_incrementalSync_iff cursor s n⟩

end Fumiko.EmailCore
