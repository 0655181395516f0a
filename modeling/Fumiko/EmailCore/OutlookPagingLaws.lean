import Fumiko.EmailCore.CursorLaws
import Fumiko.EmailCore.OutlookReplayLaws
import Fumiko.Foundation.Paging

namespace Fumiko.EmailCore.Outlook

open Fumiko.Common Fumiko.Foundation Fumiko.Foundation.Action Fumiko.Net Fumiko.OAuth
  Fumiko.Program Fumiko.Storage

variable {maxResults n : ℕ} {url link : String} {ids : List String} {c : Changes}
  {ms rest : List OutlookMoment}

section Listings

def fetchInitial (url : String) : Action (List OutlookMoment) ProviderError DeltaResponse :=
  Action.mapError ProviderError.ofReqwest (request url (·.delta url))

def initialListing : Listing (List OutlookMoment) ProviderError String DeltaResponse String where
  fetch := fetchInitial
  next := (·.nextLink)
  mark := (·.deltaLink)
  unmarked := .invalidData "Outlook initial sync completed without returning delta cursor"
  overlong := .invalidData "Outlook initial sync exceeded maximum page limit of 200"

def fetchDelta (url : String) : Action (List OutlookMoment) ProviderError DeltaResponse := fun ms =>
  let (raw, ms) := sendRequestWithRetry (·.delta url) max429Retries ms
  if raw.status = some 410 then (.error .cursorExpired, ms)
  else match raw.json url with
    | .error e => (.error (.ofReqwest e), ms)
    | .ok response => (.ok response, ms)

def incrementalListing : Listing (List OutlookMoment) ProviderError String DeltaResponse String where
  fetch := fetchDelta
  next := (·.nextLink)
  mark := (·.deltaLink)
  unmarked := .invalidData "Outlook incremental sync completed without returning delta cursor"
  overlong := .invalidData "Outlook incremental sync exceeded maximum page limit of 200"

def takeIds (maxResults : ℕ) (ids : List String) (page : DeltaResponse) : List String :=
  ids ++ (page.value.map (·.id)).take (maxResults - ids.length)

def addItems (c : Changes) (page : DeltaResponse) : Changes := page.value.foldl Changes.add c

@[simp] theorem initialListing_next (page : DeltaResponse) :
    initialListing.next page = page.nextLink := rfl

@[simp] theorem initialListing_mark (page : DeltaResponse) :
    initialListing.mark page = page.deltaLink := rfl

@[simp] theorem incrementalListing_next (page : DeltaResponse) :
    incrementalListing.next page = page.nextLink := rfl

@[simp] theorem incrementalListing_mark (page : DeltaResponse) :
    incrementalListing.mark page = page.deltaLink := rfl

theorem readInitial_eq_read (maxResults n : ℕ) (link : Option String) (ids : List String) :
    readInitial maxResults n link ids = initialListing.read (takeIds maxResults) n link ids := by
  induction n generalizing link ids with
  | zero => cases link <;> rfl
  | succ n ih =>
    cases link with
    | none => rfl
    | some url =>
      refine congrArg (fetchInitial url >>= ·) (funext fun response => ?_)
      cases hlink : response.deltaLink with
      | some link => simp only [initialListing_mark, hlink, takeIds]
      | none => simp only [initialListing_mark, initialListing_next, hlink, ih, takeIds]

theorem readDelta_eq_read (n : ℕ) (link : Option String) (c : Changes) :
    readDelta n link c = incrementalListing.read addItems n link c := by
  induction n generalizing link c with
  | zero => cases link <;> rfl
  | succ n ih =>
    cases link with
    | none => rfl
    | some url =>
      funext ms
      change _ = (fetchDelta url >>= _) ms
      cases hsend : sendRequestWithRetry (·.delta url) max429Retries ms with
      | mk raw rest =>
        by_cases hgone : raw.status = some 410
        · simp only [readDelta, fetchDelta, bind_run, hsend, hgone, if_true]
        · simp only [readDelta, fetchDelta, bind_run, hsend, hgone, if_false]
          cases raw.json url with
          | error e => rfl
          | ok response =>
            cases hlink : response.deltaLink with
            | some link => simp only [incrementalListing_mark, hlink, addItems, pure_run]
            | none => simp only [incrementalListing_mark, incrementalListing_next, hlink, ih, addItems]

def items (pages : List DeltaResponse) : List DeltaMessageItem := pages.flatMap (·.value)

theorem items_cons (page : DeltaResponse) (pages : List DeltaResponse) :
    items (page :: pages) = page.value ++ items pages := rfl

theorem foldl_takeIds (maxResults : ℕ) (pages : List DeltaResponse) (ids : List String) :
    pages.foldl (takeIds maxResults) ids =
      ids ++ ((items pages).map (·.id)).take (maxResults - ids.length) := by
  induction pages generalizing ids with
  | nil => simp [items]
  | cons page pages ih =>
    rw [List.foldl_cons, ih, items_cons, List.map_append, List.take_append, takeIds]
    simp only [List.append_assoc, List.length_append, List.length_take, List.length_map]
    congr 3
    omega

theorem foldl_addItems (pages : List DeltaResponse) (c : Changes) :
    pages.foldl addItems c = ⟨c.new ++ presentIds (items pages), c.trashed ++ removedIds (items pages)⟩ := by
  rw [← changes_foldl]
  induction pages generalizing c with
  | nil => rfl
  | cons page pages ih =>
    rw [List.foldl_cons, ih, items_cons, List.foldl_append]
    rfl

end Listings

section Exhaustive

/-- What a sync routine makes of the chain of delta pages from `start` on. -/
structure Exhaustive
    (L : Listing (List OutlookMoment) ProviderError String DeltaResponse String)
    (sync : Action (List OutlookMoment) ProviderError SyncPage) (start : String)
    (pageOf : List DeltaMessageItem → String → SyncPage) (ms : List OutlookMoment) : Prop where
  complete : ∀ pages link rest, L.Complete start ms pages link rest →
    pages.length ≤ maxInitialSyncPages → sync ms = (.ok (pageOf (items pages) link), rest)
  unmarked : ∀ pages rest, L.Linked (some start) ms pages none rest →
    ∃ e rest', sync ms = (.error e, rest')
  beyond : ∀ pages link rest, L.Complete start ms pages link rest →
    maxInitialSyncPages < pages.length → ∃ rest', sync ms = (.error L.overlong, rest')
  endless : ∀ pages link rest, L.Linked (some start) ms pages (some link) rest →
    maxInitialSyncPages ≤ pages.length → ∃ rest', sync ms = (.error L.overlong, rest')
  failed : ∀ pages link e rest rest', L.Linked (some start) ms pages (some link) rest →
    pages.length < maxInitialSyncPages → L.fetch link rest = (.error e, rest') → sync ms = (.error e, rest')
  produced : ∀ page rest, sync ms = (.ok page, rest) → ∃ pages link,
    L.Complete start ms pages link rest ∧ pages.length ≤ maxInitialSyncPages ∧
      page = pageOf (items pages) link

variable {L : Listing (List OutlookMoment) ProviderError String DeltaResponse String}
  {sync : Action (List OutlookMoment) ProviderError SyncPage} {start : String}
  {pageOf : List DeltaMessageItem → String → SyncPage}

theorem exhaustive_of_read {Acc : Type} (add : Acc → DeltaResponse → Acc) (acc : Acc)
    (page : Acc → String → SyncPage)
    (hsync : sync = L.read add maxInitialSyncPages (some start) acc >>= fun r => pure (page r.1 r.2))
    (hpage : ∀ pages link, page (pages.foldl add acc) link = pageOf (items pages) link)
    (ms : List OutlookMoment) : Exhaustive L sync start pageOf ms := by
  have herror {e rest} (h : L.read add maxInitialSyncPages (some start) acc ms = (.error e, rest)) :
      sync ms = (.error e, rest) := by
    rw [hsync, bind_run, h]
  refine ⟨?_, ?_, ?_, ?_, ?_, ?_⟩
  · intro pages link rest hpages hlength
    rw [hsync, bind_run, Listing.read_eq_ok_iff.mpr ⟨pages, hpages, hlength, rfl⟩, ← hpage]
    rfl
  · intro pages rest hlinked
    by_cases hlength : pages.length ≤ maxInitialSyncPages
    · exact ⟨_, _, herror (hlinked.read_unmarked hlength)⟩
    · obtain ⟨rest', hread⟩ := hlinked.read_beyond (not_le.mp hlength) add acc
      exact ⟨_, rest', herror hread⟩
  · intro pages link rest hpages hlength
    obtain ⟨rest', hread⟩ := hpages.read_beyond hlength add acc
    exact ⟨rest', herror hread⟩
  · intro pages link rest hlinked hlength
    cases hlength.lt_or_eq with
    | inl hlt =>
      obtain ⟨rest', hread⟩ := hlinked.read_beyond hlt add acc
      exact ⟨rest', herror hread⟩
    | inr heq => exact ⟨rest, herror (hlinked.read_overlong heq.symm)⟩
  · intro pages link e rest rest' hlinked hlength hfetch
    exact herror (hlinked.read_failed hlength hfetch)
  · intro found rest h
    rw [hsync] at h
    obtain ⟨⟨acc', link⟩, rest', hread, hfound⟩ := bind_eq_ok.mp h
    cases hfound
    obtain ⟨pages, hpages, hlength, rfl⟩ := Listing.read_eq_ok_iff.mp hread
    exact ⟨pages, link, hpages, hlength, hpage pages link⟩

def initialPage (maxResults : ℕ) (items : List DeltaMessageItem) (link : String) : SyncPage where
  newMessageIds := (items.map (·.id)).take maxResults
  trashedMessageIds := []
  deletedMessageIds := []
  restoredMessageIds := []
  nextCursor := link
  hasMore := false

def incrementalPage (items : List DeltaMessageItem) (link : String) : SyncPage where
  newMessageIds := presentIds items
  trashedMessageIds := removedIds items
  deletedMessageIds := []
  restoredMessageIds := []
  nextCursor := link
  hasMore := false

theorem initialSync_exhaustive (options : SyncOptions) (ms : List OutlookMoment) :
    Exhaustive initialListing (initialSync options) (initialUrl options.maxResults)
      (initialPage options.maxResults) ms := by
  refine exhaustive_of_read (takeIds options.maxResults) []
    (fun ids link => ⟨ids, [], [], [], link, false⟩) ?_ ?_ ms
  · rw [initialSync, readInitial_eq_read]
  · intro pages link
    rw [foldl_takeIds]
    rfl

theorem incrementalSync_exhaustive (cursor : String) (ms : List OutlookMoment) :
    Exhaustive incrementalListing (incrementalSync cursor) cursor incrementalPage ms := by
  refine exhaustive_of_read addItems ⟨[], []⟩
    (fun c link => ⟨c.new, c.trashed, [], [], link, false⟩) ?_ ?_ ms
  · rw [incrementalSync, readDelta_eq_read]
  · intro pages link
    rw [foldl_addItems]
    rfl

theorem fetchDelta_gone {raw : HttpReply DeltaResponse}
    (hsend : sendRequestWithRetry (·.delta url) max429Retries ms = (raw, rest))
    (hgone : raw.status = some 410) : incrementalListing.fetch url ms = (.error .cursorExpired, rest) := by
  change fetchDelta url ms = _
  simp only [fetchDelta, hsend, hgone, if_true]

end Exhaustive

section Cursors

variable {bundled : Bundled} {account : LinkedAccount} {w w' : World} {r : Except SyncError Unit}

def Uses (ms rest : List OutlookMoment) : Prop := rest <:+ ms

instance : Std.Refl Uses := ⟨List.suffix_refl⟩

instance : IsTrans (List OutlookMoment) Uses := ⟨fun _ _ _ h h' => List.IsSuffix.trans h' h⟩

theorem sendRequestWithRetry_suffix {α : Type} (ask : OutlookMoment → HttpReply α) (retries : ℕ)
    (ms : List OutlookMoment) : (sendRequestWithRetry ask retries ms).2 <:+ ms := by
  induction retries generalizing ms with
  | zero =>
    cases ms with
    | nil => exact List.suffix_refl _
    | cons m ms => exact List.suffix_cons m ms
  | succ retries ih =>
    cases ms with
    | nil => exact List.suffix_refl _
    | cons m ms =>
      rw [sendRequestWithRetry]
      split
      · exact (ih ms).trans (List.suffix_cons m ms)
      · exact List.suffix_cons m ms

theorem moves_request {α : Type} (url : String) (ask : OutlookMoment → HttpReply α) :
    Moves Uses (request url ask) := ⟨fun ms => sendRequestWithRetry_suffix ask max429Retries ms⟩

theorem moves_fetchDelta (url : String) : Moves Uses (fetchDelta url) := by
  constructor
  intro ms
  have hsuffix := sendRequestWithRetry_suffix (·.delta url) max429Retries ms
  cases hsend : sendRequestWithRetry (·.delta url) max429Retries ms with
  | mk raw rest =>
    rw [hsend] at hsuffix
    simp only [fetchDelta, hsend]
    split
    · exact hsuffix
    · cases raw.json url <;> exact hsuffix

theorem moves_initialSync (options : SyncOptions) : Moves Uses (initialSync options) := by
  rw [initialSync, readInitial_eq_read]
  apply moves_bind
  · exact Listing.moves_read (fun url => moves_mapError (moves_request url _)) _ _ _
  · exact fun _ => moves_pure _

theorem moves_incrementalSync (cursor : String) : Moves Uses (incrementalSync cursor) := by
  rw [incrementalSync, readDelta_eq_read]
  exact moves_bind (Listing.moves_read moves_fetchDelta _ _ _) fun _ => moves_pure _

def Spends (w w' : World) : Prop := Uses w.outside.outlook w'.outside.outlook

instance : Std.Refl Spends := ⟨fun _ => List.suffix_refl _⟩

instance : IsTrans World Spends := ⟨fun _ _ _ h h' => List.IsSuffix.trans h' h⟩

theorem spends_of_eq (h : w'.outside.outlook = w.outside.outlook) : Spends w w' := by
  rw [Spends, h]
  exact List.suffix_refl _

theorem moves_onOutlook {ε α : Type} {x : Action (List OutlookMoment) ε α} (h : Moves Uses x) :
    Moves Spends (onOutlook x) := ⟨fun w => h.run w.outside.outlook⟩

theorem spends_aside (account : Uuid) : Aside account Spends :=
  ⟨fun _ _ _ _ houtlook _ => spends_of_eq houtlook, fun _ _ _ => spends_of_eq rfl,
    fun _ _ => spends_of_eq rfl⟩

theorem moves_statement_spends {α : Type} (f : Db → Except StorageError (α × Db)) :
    Moves Spends (statement f) :=
  moves_statement (R := Spends) (fun _ => spends_of_eq rfl) fun _ _ _ _ => spends_of_eq rfl

theorem spends_discovering (bundled : Bundled) (account : LinkedAccount) :
    Discovering Spends bundled provider account where
  token := moves_accessTokenFor (spends_aside account.id) bundled
  invalidate := moves_update fun _ => spends_of_eq rfl
  options := by
    apply moves_bind
    · apply moves_bind (moves_attempt (moves_query (R := Spends) (fun _ => spends_of_eq rfl) _))
      intro value
      cases value <;> exact moves_pure _
    · exact fun _ => moves_pure _
  clear := by
    apply moves_bind (moves_statement_spends _)
    exact fun _ => moves_log fun _ => spends_of_eq rfl
  initialSync _ options := moves_onOutlook (moves_initialSync options)
  incrementalSync _ cursor := moves_onOutlook (moves_incrementalSync cursor)

theorem storedCursor_discovered {cursor : String} (hpass : syncOneAccountInner bundled account w = (r, w'))
    (hstored : .storedCursor account.id cursor ∈ w.since w') : ∃ token page isInitialSync w₁,
      discover bundled (providerFor account) account w = (.ok (token, page, isInitialSync), w₁) ∧
        cursor = page.nextCursor := by
  cases syncOneAccountInner_ends hpass with
  | undiscovered h => exact (((emits_discover bundled account).of_eq h).of_mem_since hstored).elim
  | unapplied h => exact (h.unstored.of_mem_since hstored).elim
  | held h hfinish =>
    have hrest := ((leaves_finish account _ _ _).of_eq hfinish).emits
    have hunstored : World.Emits Unstored w w' :=
      IsTrans.trans _ _ _ h.unstored (hrest.mono fun _ => unstored_of_classifies)
    exact (hunstored.of_mem_since hstored).elim
  | unstored h hstore =>
    have hunstored : World.Emits Unstored w w' :=
      IsTrans.trans _ _ _ h.unstored (World.emits_of_keeps (updateSyncCursor_eq_error hstore).2)
    exact (hunstored.of_mem_since hstored).elim
  | @stored token page isInitialSync w₁ saved w₂ w₃ r w' h hstore hfinish =>
    have hfinish := ((leaves_finish account _ _ _).of_eq hfinish).emits
    exact ⟨token, page, isInitialSync, w₁, h.discover, (h.storedCursor_mem_since hstore hfinish).mp hstored⟩

/-- The link ends a chain of delta pages, within the limit, that the service answers from some
moment of `ms` on. -/
def EndsChain (account : LinkedAccount) (ms : List OutlookMoment) (link : String) : Prop :=
  ∃ later pages rest, later <:+ ms ∧ pages.length ≤ maxInitialSyncPages ∧
    ((∃ cursor, account.syncCursor = some cursor ∧
        incrementalListing.Complete cursor later pages link rest) ∨
      ∃ maxResults, initialListing.Complete (initialUrl maxResults) later pages link rest)

theorem providerFor_outlook (hprovider : account.provider = .outlook) (hhost : account.imapHost = none) :
    providerFor account = provider := by
  rw [providerFor, if_neg (by simp [hprovider, hhost]), hprovider]

theorem endsChain_of_stored {link : String} (hprovider : account.provider = .outlook)
    (hhost : account.imapHost = none)
    (hpass : syncOneAccountInner bundled account w = (r, w'))
    (hstored : .storedCursor account.id link ∈ w.since w') :
    EndsChain account w.outside.outlook link := by
  obtain ⟨token, page, isInitialSync, w₂, hdiscover, rfl⟩ := storedCursor_discovered hpass hstored
  rw [providerFor_outlook hprovider hhost] at hdiscover
  obtain ⟨w₁, hspends, hrequested⟩ := (spends_discovering bundled account).discover_eq_ok hdiscover
  cases hrequested with
  | initial options h =>
    obtain ⟨pages, link, hpages, hlength, rfl⟩ :=
      (initialSync_exhaustive options w₁.outside.outlook).produced _ _ (onOutlook_outcome h)
    exact ⟨_, pages, _, hspends, hlength, Or.inr ⟨options.maxResults, hpages⟩⟩
  | incremental cursor hcursor h =>
    obtain ⟨pages, link, hpages, hlength, rfl⟩ :=
      (incrementalSync_exhaustive cursor w₁.outside.outlook).produced _ _ (onOutlook_outcome h)
    exact ⟨_, pages, _, hspends, hlength, Or.inl ⟨cursor, hcursor, hpages⟩⟩

/-- Both sync routines return a page exactly when the chain of delta pages ends with a delta link
within the limit, and then it has all of the chain; a page that is gone expires the cursor; and
what a pass stores as the cursor is such a delta link. -/
theorem outlook_pagination_exhaustive :
    (∀ cursor ms, Exhaustive incrementalListing (incrementalSync cursor) cursor incrementalPage ms) ∧
    (∀ options ms, Exhaustive initialListing (initialSync options) (initialUrl options.maxResults)
      (initialPage options.maxResults) ms) ∧
    (∀ url ms raw rest, sendRequestWithRetry (·.delta url) max429Retries ms = (raw, rest) →
      raw.status = some 410 → incrementalListing.fetch url ms = (.error .cursorExpired, rest)) ∧
    ∀ bundled account w r w' link, account.provider = .outlook → account.imapHost = none →
      syncOneAccountInner bundled account w = (r, w') →
        .storedCursor account.id link ∈ w.since w' → EndsChain account w.outside.outlook link :=
  ⟨incrementalSync_exhaustive, initialSync_exhaustive, fun _ _ _ _ => fetchDelta_gone,
    fun _ _ _ _ _ _ => endsChain_of_stored⟩

def pageMoment (ids : List String) (nextLink deltaLink : Option String) : OutlookMoment :=
  { deltaMoment [] with delta _ := .response 200 "OK" (.ok ⟨ids.map (⟨·, none⟩), nextLink, deltaLink⟩) }

def chainedMoments : List OutlookMoment :=
  [pageMoment ["1", "2"] (some "second") none, pageMoment [] (some "third") none,
    pageMoment ["3"] none (some "delta")]

theorem outlook_pagination_exhaustive_chain :
    incrementalSync "cursor" chainedMoments = (.ok ⟨["1", "2", "3"], [], [], [], "delta", false⟩, []) ∧
    initialSync { maxResults := 2 } chainedMoments = (.ok ⟨["1", "2"], [], [], [], "delta", false⟩, []) := by
  obtain ⟨hincremental, hinitial, -, -⟩ := outlook_pagination_exhaustive
  constructor
  · exact (hincremental "cursor" chainedMoments).complete _ "delta" []
      (.more rfl rfl rfl (.more rfl rfl rfl (.last rfl rfl))) (by decide)
  · exact (hinitial { maxResults := 2 } chainedMoments).complete _ "delta" []
      (.more rfl rfl rfl (.more rfl rfl rfl (.last rfl rfl))) (by decide)

end Cursors

end Fumiko.EmailCore.Outlook
