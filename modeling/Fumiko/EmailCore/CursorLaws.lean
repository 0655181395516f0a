import Fumiko.EmailCore.PassLaws

namespace Fumiko.EmailCore

open Fumiko.Common Fumiko.Foundation Fumiko.Foundation.Action Fumiko.Net Fumiko.OAuth
  Fumiko.Program Fumiko.Storage

inductive ReportsMissing (id : String) : ProviderError → Prop
  | gmail (text) : ReportsMissing id (.other (.reqwest ⟨.status 404, Gmail.detailUrl id, text⟩))
  | outlook (text) : ReportsMissing id (.other (.reqwest ⟨.status 404, Outlook.messageUrl id, text⟩))
  | imap : ReportsMissing id (.invalidData (Imap.missingText id))

section Answers

def Answers (id : String) : Except ProviderError MessageMetadata → Prop
  | .ok m => m.id = id
  | .error e => ∀ other, ReportsMissing other e → ReportsMissing id e

def Answered (ids : List String) (results : List (Except ProviderError MessageMetadata)) : Prop :=
  ∃ order : List String, order.Perm ids ∧ List.Forall₂ Answers order results

variable {id : String} {ids : List String} {results : List (Except ProviderError MessageMetadata)}

theorem Answered.exists_of_mem (h : Answered ids results) (hid : id ∈ ids) :
    ∃ r ∈ results, Answers id r := by
  obtain ⟨order, hperm, hforall⟩ := h
  have horder : id ∈ order := hperm.mem_iff.mpr hid
  clear hperm
  induction hforall with
  | nil => cases horder
  | cons hanswers _ ih =>
    cases horder with
    | head => exact ⟨_, List.mem_cons_self, hanswers⟩
    | tail _ horder =>
      obtain ⟨r, hr, hanswers⟩ := ih horder
      exact ⟨r, List.mem_cons_of_mem _ hr, hanswers⟩

theorem answers_ofReqwest {e : ReqwestError}
    (h : e.url = Gmail.detailUrl id ∨ e.url = Outlook.messageUrl id) :
    Answers id (.error (.ofReqwest e)) := by
  rcases e with ⟨kind, url, text⟩
  intro other hmissing
  rw [ProviderError.ofReqwest] at hmissing ⊢
  split at hmissing
  · cases hmissing
  · split at hmissing
    · cases hmissing
    · rw [if_neg ‹_›, if_neg ‹_›]
      have hkind : kind = .status 404 := by cases hmissing <;> rfl
      subst hkind
      rcases h with rfl | rfl
      · exact .gmail text
      · exact .outlook text

theorem json_url {α : Type} {reply : HttpReply α} {url : String} {e : ReqwestError}
    (h : reply.json url = .error e) : e.url = url := by
  cases reply with
  | failed text =>
    cases h
    rfl
  | response status statusText body =>
    cases body with
    | error text =>
      simp only [HttpReply.json] at h
      split at h <;> cases h <;> rfl
    | ok a =>
      simp only [HttpReply.json] at h
      split at h <;> cases h
      rfl

theorem answers_bind {α : Type} {x : Program ProviderError α}
    {f : α → Program ProviderError MessageMetadata}
    (hx : ∀ e w w', x w = (.error e, w') → Answers id (.error e))
    (hf : ∀ a w, Answers id (f a w).1) (w : World) : Answers id ((x >>= f) w).1 := by
  rw [bind_run]
  rcases h : x w with ⟨e | a, w'⟩
  · exact hx e w w' h
  · exact hf a w'

theorem gmail_request_url {α : Type} {url : String} {ask : GmailMoment → HttpReply α}
    {ms ms' : List GmailMoment} {e : ReqwestError} (h : Gmail.request url ask ms = (.error e, ms')) :
    e.url = url := by
  cases ms with
  | nil =>
    cases h
    rfl
  | cons m ms =>
    rw [Gmail.request] at h
    exact json_url (congrArg Prod.fst h)

theorem outlook_request_url {α : Type} {url : String} {ask : OutlookMoment → HttpReply α}
    {ms ms' : List OutlookMoment} {e : ReqwestError}
    (h : Outlook.request url ask ms = (.error e, ms')) : e.url = url :=
  json_url (congrArg Prod.fst h)

theorem onGmail_outcome {α ε : Type} {x : Action (List GmailMoment) ε α} {r : Except ε α}
    {w w' : World} (h : onGmail x w = (r, w')) : x w.outside.gmail = (r, (x w.outside.gmail).2) := by
  cases h
  rfl

theorem onOutlook_outcome {α ε : Type} {x : Action (List OutlookMoment) ε α} {r : Except ε α}
    {w w' : World} (h : onOutlook x w = (r, w')) :
    x w.outside.outlook = (r, (x w.outside.outlook).2) := by
  cases h
  rfl

theorem gmail_answers (id : String) (w : World) : Answers id (Gmail.fetchOneSummary id w).1 := by
  apply answers_bind
  · intro e w w' h
    obtain ⟨e₀, h₀, rfl⟩ := mapError_eq_error.mp (onGmail_outcome h)
    exact answers_ofReqwest (Or.inl (gmail_request_url h₀))
  · intro metadata w
    dsimp only
    cases Decimal.parseI64 metadata.internalDate <;> rfl

theorem outlook_answers (id : String) (w : World) : Answers id (Outlook.fetchOneSummary id w).1 := by
  apply answers_bind
  · intro e w w' h
    obtain ⟨e₀, h₀, rfl⟩ := mapError_eq_error.mp (onOutlook_outcome h)
    exact answers_ofReqwest (Or.inr (outlook_request_url h₀))
  · intro message w
    rw [bind_run, read_run]
    dsimp only
    cases message.receivedDateTime.bind w.outside.parseRfc3339 <;> rfl

theorem imap_answers (fetches : List ImapFetch) (id : String) (w : World) :
    Answers id (Imap.readFetch fetches id w).1 := by
  rw [Imap.readFetch]
  cases Imap.fetchFor fetches id with
  | none => exact fun _ _ => .imap
  | some fetch =>
    dsimp only
    cases fetch.headers.bind (·.date) <;> rfl

theorem readFetch_missing {fetches : List ImapFetch} {e : ProviderError} {w w' : World}
    (h : Imap.readFetch fetches id w = (.error e, w')) :
    Imap.fetchFor fetches id = none ∧ e = .invalidData (Imap.missingText id) := by
  rw [Imap.readFetch] at h
  cases hfetch : Imap.fetchFor fetches id with
  | none =>
    rw [hfetch] at h
    cases h
    exact ⟨rfl, rfl⟩
  | some fetch =>
    rw [hfetch] at h
    dsimp only at h
    cases hdate : fetch.headers.bind (·.date) <;> rw [hdate] at h <;> cases h

theorem answered_collect {f : String → Program ProviderError MessageMetadata} {w : World}
    (hf : ∀ id w, Answers id (f id w).1) {order : List String} (hperm : order.Perm ids)
    {w' : World} (h : (collect f order : Program ProviderError _) w = (.ok results, w')) :
    Answered ids results := by
  obtain ⟨rs, t, hrs, hforall⟩ := collect_forall₂ (δ := ProviderError) hf order w
  rw [h] at hrs
  cases hrs
  exact ⟨order, hperm, hforall⟩

theorem providerFor_answered (account : LinkedAccount) {token : String} {w w' : World}
    (h : (providerFor account).fetchMessageMetadata token ids w = (.ok results, w')) :
    Answered ids results := by
  rw [providerFor] at h
  split at h
  · change Imap.fetchMessageMetadata ids w = _ at h
    rw [Imap.fetchMessageMetadata] at h
    split at h
    · next hempty =>
      cases h
      exact ⟨[], by simp [List.isEmpty_iff.mp hempty], .nil⟩
    · obtain ⟨session, w₁, _, h⟩ := bind_eq_ok.mp h
      obtain ⟨validity, w₂, _, h⟩ := bind_eq_ok.mp h
      obtain ⟨fetches, w₃, _, hcollect⟩ := bind_eq_ok.mp h
      exact answered_collect (imap_answers fetches) (.refl _) hcollect
  · split at h
    · obtain ⟨order, w₁, horder, hcollect⟩ := bind_eq_ok.mp h
      cases horder
      exact answered_collect outlook_answers (arrange_perm _ _) hcollect
    · obtain ⟨order, w₁, horder, hcollect⟩ := bind_eq_ok.mp h
      cases horder
      exact answered_collect gmail_answers (arrange_perm _ _) hcollect

end Answers

section Hydration

variable {account : Uuid} {total idx : Nat} {results : List (Except ProviderError MessageMetadata)}
  {saved : List NewEmail} {failed : Bool} {w w' : World}

def Saves : Event → Prop
  | .progress _ _ _ | .savedEmail _ _ _ _ => True
  | _ => False

theorem emits_saveEmail (account : Uuid) (id : String) (subject sender : Option String)
    (receivedAt : Int) (isRead : Bool) (snippet : Option String) :
    Moves (World.Emits Saves) (saveEmail account id subject sender receivedAt isRead snippet) :=
  (leaves_saveEmail (fun _ _ _ _ => trivial) _ _ _ _ _ _ _).mono fun _ _ h => h.emits

theorem emits_hydrateAll (account : Uuid) (total idx : Nat)
    (results : List (Except ProviderError MessageMetadata)) :
    Moves (World.Emits Saves) (hydrateAll account total idx results) :=
  moves_hydrateAll (fun _ _ _ _ => World.emits_record trivial) (emits_saveEmail account) _ _ _

def Logged (account : Uuid) (w w' : World) : Except ProviderError MessageMetadata → Prop
  | .ok m => ∃ row isNew, .savedEmail row account m.id isNew ∈ w.since w'
  | .error _ => True

theorem Logged.mono {w₁ w₁' : World} {result : Except ProviderError MessageMetadata}
    (h : Logged account w w' result) (hmem : ∀ e ∈ w.since w', e ∈ w₁.since w₁') :
    Logged account w₁ w₁' result := by
  cases result with
  | error e => trivial
  | ok m =>
    obtain ⟨row, isNew, hsaved⟩ := h
    exact ⟨row, isNew, hmem _ hsaved⟩

theorem hydrateOne_eq_ok {result : Except ProviderError MessageMetadata}
    (h : hydrateOne account result w = (.ok (saved, failed), w')) :
    (failed = false ↔ ∀ e, .error e = result → isNotFoundError e) ∧ Logged account w w' result ∧
      World.Emits Saves w w' := by
  cases result with
  | error e =>
    cases h
    exact ⟨by simp, trivial, Std.Refl.refl _⟩
  | ok m =>
    obtain ⟨row, hsave, heq⟩ := hydrateOne_saved h
    cases heq
    obtain ⟨db, _, _, hjournal⟩ := saveEmail_eq_ok hsave
    refine ⟨by simp, ⟨row, (w.db.email account m.id).isNone, ?_⟩, (emits_saveEmail _ _ _ _ _ _ _).of_eq hsave⟩
    rw [World.since, hjournal, List.drop_left]
    exact List.mem_singleton_self _

theorem hydrateAll_eq_ok (h : hydrateAll account total idx results w = (.ok (saved, failed), w')) :
    (failed = false ↔ ∀ e, .error e ∈ results → isNotFoundError e) ∧
      ∀ result ∈ results, Logged account w w' result := by
  induction results generalizing idx w saved failed with
  | nil =>
    cases h
    simp
  | cons result results ih =>
    obtain ⟨⟨savedOne, failedOne⟩, ⟨savedRest, failedRest⟩, w₁, hone, hrest, heq⟩ := hydrateAll_cons h
    cases heq
    obtain ⟨hfailedOne, hlogged, hemits⟩ := hydrateOne_eq_ok hone
    obtain ⟨hfailedRest, hloggedRest⟩ := ih hrest
    have hprogress : World.Emits Saves w₁ (w₁.record (.progress (idx + 1) total .hydrating)) :=
      World.emits_record trivial
    have hemitsRest := (emits_hydrateAll account total (idx + 1) results).of_eq hrest
    have hafter : World.Emits Saves w₁ w' := IsTrans.trans _ _ _ hprogress hemitsRest
    have hbefore : World.Emits Saves w (w₁.record (.progress (idx + 1) total .hydrating)) :=
      IsTrans.trans _ _ _ hemits hprogress
    constructor
    · simp [hfailedOne, hfailedRest, forall_and, or_imp]
    · intro r hr
      cases hr with
      | head => exact hlogged.mono fun e he => (hemits.mem_since hafter).mpr (Or.inl he)
      | tail _ hr =>
        exact (hloggedRest r hr).mono fun e he => (hbefore.mem_since hemitsRest).mpr (Or.inr he)

structure Hydrated (account : Uuid) (ids : List String)
    (results : List (Except ProviderError MessageMetadata)) (failed : Bool) (w w' : World) : Prop where
  answered : Answered ids results
  failed : failed = false ↔ ∀ e, .error e ∈ results → isNotFoundError e
  logged : ∀ result ∈ results, Logged account w w' result
  reported : ∀ result ∈ results, .hydrated account results ∈ w.since w'
  only : ∀ other, .hydrated account other ∈ w.since w' → other = results

def Unhydrated : Event → Prop
  | .hydrated _ _ => False
  | _ => True

theorem emits_fetch (account : LinkedAccount) (token : String) (ids : List String) :
    Moves (World.Emits Unhydrated) ((providerFor account).fetchMessageMetadata token ids) :=
  (providerFor_emits (fun _ => trivial) (fun _ _ => trivial) account).fetchMessageMetadata token ids

theorem applyPage_eq_ok {account : LinkedAccount} {token : String} {page : SyncPage}
    (h : applyPage (providerFor account) account.id token page w = (.ok (saved, failed), w')) :
    ∃ results, Hydrated account.id page.newMessageIds results failed w w' := by
  obtain ⟨hydrated, w₂, hhydrate, h⟩ := bind_eq_ok.mp h
  obtain ⟨u, w₃, hremote, hpure⟩ := bind_eq_ok.mp h
  cases hpure
  have hquiet := ((leaves_applyRemoteChanges (P := fun _ => False) account.id page).of_eq hremote).emits
  rw [hydrate] at hhydrate
  split at hhydrate
  · next hempty =>
    cases hhydrate
    have hnone (result : Except ProviderError MessageMetadata) : result ∉ [] := List.not_mem_nil
    refine ⟨[], ⟨[], by simp [List.isEmpty_iff.mp hempty], .nil⟩, by simp, fun _ hresult =>
      (hnone _ hresult).elim, fun _ hresult => (hnone _ hresult).elim, ?_⟩
    intro other hother
    exact (hquiet.of_mem_since hother).elim
  · obtain ⟨results, w₁, hfetch, hhydrate⟩ := bind_eq_ok.mp (bind_log hhydrate)
    have hfetch := mapError_eq_ok.mp hfetch
    have hhydrate := bind_log hhydrate
    obtain ⟨hfailed, hlogged⟩ := hydrateAll_eq_ok hhydrate
    have hprogress : World.Emits Unhydrated w
        (w.record (.progress 0 page.newMessageIds.length .hydrating)) := World.emits_record trivial
    have hbefore : World.Emits Unhydrated w w₁ :=
      IsTrans.trans _ _ _ hprogress ((emits_fetch account token _).of_eq hfetch)
    have hsaves := (emits_hydrateAll account.id _ 0 results).of_eq hhydrate
    have hafter : World.Emits Saves (w₁.record (.hydrated account.id results)) w' :=
      IsTrans.trans _ _ _ hsaves (hquiet.mono fun _ h => h.elim)
    have hrecord : World.Emits (fun _ => True) w₁ (w₁.record (.hydrated account.id results)) :=
      World.emits_record trivial
    have hfrom : World.Emits (fun _ => True) w (w₁.record (.hydrated account.id results)) :=
      IsTrans.trans _ _ _ (hbefore.mono fun _ _ => trivial) hrecord
    refine ⟨results, providerFor_answered account hfetch, hfailed, ?_, ?_, ?_⟩
    · intro result hresult
      apply (hlogged result hresult).mono
      intro e he
      exact (hfrom.mem_since hafter).mpr (Or.inr ((hsaves.mem_since hquiet).mpr (Or.inl he)))
    · intro _ _
      rw [hfrom.mem_since hafter, hbefore.mem_since hrecord, World.since_record]
      exact Or.inl (Or.inr (List.mem_singleton_self _))
    · intro other hother
      rw [hfrom.mem_since hafter, hbefore.mem_since hrecord, World.since_record] at hother
      rcases hother with (hother | hother) | hother
      · exact (hbefore.of_mem_since hother).elim
      · cases List.mem_singleton.mp hother
        rfl
      · exact (hafter.of_mem_since hother).elim

end Hydration

section Passes

variable {bundled : Bundled} {account : LinkedAccount} {w w' : World}

/-- In the pass from `w` to `w'` the cursor is only stored when every message of the page is
saved or reported missing, and any other hydration error holds it. -/
structure AdvancesSafely (bundled : Bundled) (account : LinkedAccount) (w w' : World) : Prop where
  stored : ∀ cursor, .storedCursor account.id cursor ∈ w.since w' →
    ∃ token page isInitialSync w₁,
      discover bundled (providerFor account) account w = (.ok (token, page, isInitialSync), w₁) ∧
      cursor = page.nextCursor ∧ ∀ id ∈ page.newMessageIds,
        (∃ row isNew, .savedEmail row account.id id isNew ∈ w.since w') ∨
        ∃ results e, .hydrated account.id results ∈ w.since w' ∧ .error e ∈ results ∧
          ReportsMissing id e
  held : ∀ results e, .hydrated account.id results ∈ w.since w' → .error e ∈ results →
    (∀ id, ¬ReportsMissing id e) →
    (∀ cursor, .storedCursor account.id cursor ∉ w.since w') ∧
      ∃ token page isInitialSync w₁,
        discover bundled (providerFor account) account w = (.ok (token, page, isInitialSync), w₁) ∧
        w'.db.linkedAccounts = w₁.db.linkedAccounts

/-- Where every hydration error of a pass reads as "not found", each of them is a report
that its message is missing. -/
def ReadsReports (account : LinkedAccount) (w w' : World) : Prop :=
  ∀ results, .hydrated account.id results ∈ w.since w' →
    (∀ e, .error e ∈ results → isNotFoundError e) →
      ∀ e, .error e ∈ results → ∃ id, ReportsMissing id e

theorem unhydrated_of_discovers {e : Event} (h : Discovers e) : Unhydrated e := by
  cases e <;> trivial

theorem unhydrated_of_classifies {e : Event} (h : Classifies e) : Unhydrated e := by
  cases e <;> trivial

section Applied

variable {token : String} {page : SyncPage} {isInitialSync : Bool} {w₁ w₂ : World}
  {outcome : Except SyncError (List NewEmail × Bool)}

theorem Applied.advancesSafely (h : Applied bundled account w token page isInitialSync w₁ outcome w₂)
    (hrest : Leaves Unstored w₂ w') : AdvancesSafely bundled account w w' := by
  have hunstored : World.Emits Unstored w w' := IsTrans.trans _ _ _ h.unstored hrest.emits
  refine ⟨fun _ hstored => (hunstored.of_mem_since hstored).elim, ?_⟩
  intro _ _ _ _ _
  exact ⟨fun _ hstored => hunstored.of_mem_since hstored,
    token, page, isInitialSync, w₁, h.discover, hrest.accounts.trans h.accounts⟩

theorem Applied.hydrated {saved : List NewEmail} {failed : Bool}
    (h : Applied bundled account w token page isInitialSync w₁ (.ok (saved, failed)) w₂)
    (hrest : World.Emits Unhydrated w₂ w') :
    ∃ results, Hydrated account.id page.newMessageIds results failed w w' := by
  obtain ⟨results, hresults⟩ := applyPage_eq_ok h.apply
  have hdiscover := ((emits_discover bundled account).of_eq h.discover).mono fun _ =>
    unhydrated_of_discovers
  have hrecord : World.Emits Unhydrated w₁ (w₁.record (.discovered account.id page isInitialSync)) :=
    World.emits_record trivial
  have hbefore := IsTrans.trans _ _ _ hdiscover hrecord
  have happly := ((leaves_applyPage account token page).of_eq h.apply).emits
  have hto := IsTrans.trans _ _ _ (hbefore.mono (Q := fun _ => True) fun _ _ => trivial)
    (happly.mono fun _ _ => trivial)
  have hwiden : ∀ e ∈ (w₁.record (.discovered account.id page isInitialSync)).since w₂,
      e ∈ w.since w' :=
    fun e he => (hto.mem_since hrest).mpr (Or.inl ((hbefore.mem_since happly).mpr (Or.inr he)))
  refine ⟨results, hresults.answered, hresults.failed, ?_, ?_, ?_⟩
  · exact fun result hresult => (hresults.logged result hresult).mono hwiden
  · exact fun result hresult => hwiden _ (hresults.reported result hresult)
  · intro other hother
    rw [hto.mem_since hrest, hbefore.mem_since happly] at hother
    rcases hother with (hother | hother) | hother
    · exact (hbefore.of_mem_since hother).elim
    · exact hresults.only other hother
    · exact (hrest.of_mem_since hother).elim

end Applied

theorem Hydrated.accounted {ids : List String} {results : List (Except ProviderError MessageMetadata)}
    {failed : Bool} (h : Hydrated account.id ids results failed w w')
    (hreports : ∀ e, .error e ∈ results → ∃ id, ReportsMissing id e) :
    ∀ id ∈ ids, (∃ row isNew, .savedEmail row account.id id isNew ∈ w.since w') ∨
      ∃ results e, .hydrated account.id results ∈ w.since w' ∧ .error e ∈ results ∧
        ReportsMissing id e := by
  intro id hid
  obtain ⟨result, hresult, hanswers⟩ := h.answered.exists_of_mem hid
  cases result with
  | ok m =>
    obtain ⟨row, isNew, hsaved⟩ := h.logged _ hresult
    exact Or.inl ⟨row, isNew, hanswers ▸ hsaved⟩
  | error e =>
    obtain ⟨other, hother⟩ := hreports e hresult
    exact Or.inr ⟨results, e, h.reported _ hresult, hresult, hanswers other hother⟩

theorem advancesSafely_of_readsReports (hreads : ReadsReports account w w') {r : Except SyncError Unit}
    (hpass : syncOneAccountInner bundled account w = (r, w')) :
    AdvancesSafely bundled account w w' := by
  cases syncOneAccountInner_ends hpass with
  | undiscovered h =>
    have hemits := (emits_discover bundled account).of_eq h
    constructor
    · exact fun _ hstored => (hemits.of_mem_since hstored).elim
    · exact fun _ _ hhydrated => (hemits.of_mem_since hhydrated).elim
  | unapplied h => exact h.advancesSafely (Std.Refl.refl _)
  | held h hfinish =>
    have hrest := (leaves_finish account _ _ _).of_eq hfinish
    exact h.advancesSafely ⟨hrest.accounts, hrest.emits.mono fun _ => unstored_of_classifies⟩
  | unstored h hstore =>
    obtain ⟨hdb, hjournal⟩ := updateSyncCursor_eq_error hstore
    exact h.advancesSafely ⟨congrArg Db.linkedAccounts hdb, World.emits_of_keeps hjournal⟩
  | @stored token page isInitialSync w₁ saved w₂ w₃ r w' h hstore hfinish =>
    have hfinish := ((leaves_finish account _ _ _).of_eq hfinish).emits
    have hstored (cursor : String) : .storedCursor account.id cursor ∈ w.since w' ↔ cursor = page.nextCursor :=
      h.storedCursor_mem_since hstore hfinish
    have hstore := updateSyncCursor_emits hstore
    have hrest : World.Emits Unhydrated w₂ w' :=
      IsTrans.trans _ _ _ (hstore.mono fun e he => he ▸ trivial)
        (hfinish.mono fun _ => unhydrated_of_classifies)
    obtain ⟨results, hresults⟩ := h.hydrated hrest
    have hreports : ∀ e, .error e ∈ results → ∃ id, ReportsMissing id e := fun e he =>
      hreads results (hresults.reported _ he) (hresults.failed.mp rfl) e he
    constructor
    · intro cursor hcursor
      exact ⟨token, page, isInitialSync, w₁, h.discover, (hstored _).mp hcursor, hresults.accounted hreports⟩
    · intro other e hother he hmissing
      cases hresults.only other hother
      obtain ⟨id, hid⟩ := hreports e he
      exact absurd hid (hmissing id)

theorem readsReports_of_advancesSafely (hsafe : AdvancesSafely bundled account w w')
    (hpass : syncOneAccountInner bundled account w = (.ok (), w')) : ReadsReports account w w' := by
  intro results hhydrated haccepted e he
  by_contra hmissing
  obtain ⟨hunstored, -⟩ := hsafe.held results e hhydrated he (not_exists.mp hmissing)
  cases syncOneAccountInner_ends hpass with
  | @held token page isInitialSync w₁ saved w₂ r w' h hfinish =>
    have hfinish := ((leaves_finish account _ _ _).of_eq hfinish).emits
    obtain ⟨others, hothers⟩ := h.hydrated (hfinish.mono fun _ => unhydrated_of_classifies)
    cases hothers.only results hhydrated
    exact absurd (hothers.failed.mpr haccepted) (by simp)
  | @stored token page isInitialSync w₁ saved w₂ w₃ r w' h hstore hfinish =>
    have hfinish := ((leaves_finish account _ _ _).of_eq hfinish).emits
    exact hunstored page.nextCursor ((h.storedCursor_mem_since hstore hfinish).mpr rfl)

end Passes

section Runs

structure Pass where
  account : LinkedAccount
  before : World
  after : World

inductive Run (bundled : Bundled) : List Pass → World → Prop
  | start (w) : Run bundled [] w
  | meanwhile {passes w} (h : Run bundled passes w) (w') : Run bundled passes w'
  | pass {passes w account r w'} (h : Run bundled passes w)
    (hpass : syncOneAccountInner bundled account w = (r, w')) :
    Run bundled (passes ++ [⟨account, w, w'⟩]) w'

variable {bundled : Bundled} {passes : List Pass} {final : World}

namespace Pass

def starting (bundled : Bundled) (account : LinkedAccount) (w : World) : Pass :=
  ⟨account, w, (syncOneAccountInner bundled account w).2⟩

def AdvancesSafely (bundled : Bundled) (p : Pass) : Prop :=
  EmailCore.AdvancesSafely bundled p.account p.before p.after

def ReadsReports (p : Pass) : Prop := EmailCore.ReadsReports p.account p.before p.after

def Completes (bundled : Bundled) (p : Pass) : Prop :=
  syncOneAccountInner bundled p.account p.before = (.ok (), p.after)

end Pass

theorem Run.starting (bundled : Bundled) (account : LinkedAccount) (w : World) :
    Run bundled [.starting bundled account w] (Pass.starting bundled account w).after :=
  (Run.start w).pass Prod.mk.eta.symm

theorem Run.after_eq (h : Run bundled passes final) {p : Pass} (hp : p ∈ passes) :
    ∃ r, syncOneAccountInner bundled p.account p.before = (r, p.after) := by
  induction h with
  | start => cases hp
  | meanwhile _ _ ih => exact ih hp
  | pass _ hpass ih =>
    cases List.mem_append.mp hp with
    | inl hp => exact ih hp
    | inr hp =>
      cases List.mem_singleton.mp hp
      exact ⟨_, hpass⟩

/-- A run advances the cursor safely when each of its passes reads its reports right, and a
pass that runs to its end only then. -/
theorem run_advances_safely (hrun : Run bundled passes final) :
    ((∀ p ∈ passes, p.ReadsReports) → ∀ p ∈ passes, p.AdvancesSafely bundled) ∧
    ∀ p ∈ passes, p.Completes bundled → p.AdvancesSafely bundled → p.ReadsReports := by
  constructor
  · intro hreads p hp
    obtain ⟨r, hpass⟩ := hrun.after_eq hp
    exact advancesSafely_of_readsReports (hreads p hp) hpass
  · intro p _ hpass hsafe
    exact readsReports_of_advancesSafely hsafe hpass

end Runs

section Example

def outageAccount : LinkedAccount where
  id := .ending '1'
  provider := .gmail
  emailAddress := "me@gmail.com"
  displayName := none
  syncCursor := some "7"
  lastSyncedAt := none
  lastSyncError := none
  createdAt := 0
  imapHost := none
  imapPort := none

def outageMoment : GmailMoment where
  profile := .failed "timed out"
  listMessages _ _ := .failed "timed out"
  history _ _ := .response 200 "OK"
    (.ok ⟨some [⟨some [⟨⟨"18f4049c21d3a5b7"⟩⟩], none, none, none⟩], "8", none⟩)
  message id := .response 503
    ("HTTP status server error (503 Service Unavailable) for url (" ++ Gmail.detailUrl id ++ ")")
    (.error "expected value")
  fullMessage _ := .error .unauthorized

def outageWorld : World where
  db := { Db.empty with linkedAccounts := [outageAccount] }
  keyring _ := none
  tokenCache := [(.ending '1', "access", 100)]
  journal := []
  outside := { gmail := [outageMoment, outageMoment] }

def noBundle : Bundled := ⟨none, none, none⟩

def overloaded : ProviderError :=
  .other (.reqwest ⟨.status 503, Gmail.detailUrl "18f4049c21d3a5b7",
    "HTTP status server error (503 Service Unavailable) for url (" ++
      Gmail.detailUrl "18f4049c21d3a5b7" ++ ")"⟩)

def outagePass : Pass := .starting noBundle outageAccount outageWorld

set_option maxRecDepth 20000 in
theorem outage_journal : outagePass.before.since outagePass.after =
    [.discovered (.ending '1') ⟨["18f4049c21d3a5b7"], [], [], [], "8", false⟩ false,
      .progress 0 1 .hydrating, .hydrated (.ending '1') [.error overloaded], .progress 1 1 .hydrating,
      .storedCursor (.ending '1') "8"] := by
  rfl

theorem run_skips_message : ¬∀ bundled passes final, Run bundled passes final →
    ∀ p ∈ passes, p.AdvancesSafely bundled := by
  intro h
  have hsafe := h noBundle [outagePass] outagePass.after (.starting _ _ _) outagePass List.mem_cons_self
  have hhydrated : .hydrated (.ending '1') [.error overloaded] ∈
      outagePass.before.since outagePass.after := by simp [outage_journal]
  have hstored : .storedCursor (.ending '1') "8" ∈ outagePass.before.since outagePass.after := by
    simp [outage_journal]
  have hmissing : ∀ id, ¬ReportsMissing id overloaded := by
    intro id h
    cases h
  exact (hsafe.held _ _ hhydrated List.mem_cons_self hmissing).1 "8" hstored

def deliveredMoment : GmailMoment :=
  { outageMoment with message := fun _ => .response 200 "OK" (.ok ⟨"1000", none, none, none⟩) }

def deliveredPass : Pass := .starting noBundle outageAccount
  { outageWorld with outside := { gmail := [deliveredMoment, deliveredMoment], uuids := [.ending '2'] } }

theorem delivered_journal : deliveredPass.before.since deliveredPass.after =
    [.discovered (.ending '1') ⟨["18f4049c21d3a5b7"], [], [], [], "8", false⟩ false,
      .progress 0 1 .hydrating,
      .hydrated (.ending '1') [.ok ⟨"18f4049c21d3a5b7", "(no subject)", "(no sender)", 1, true, none⟩],
      .savedEmail (.ending '2') (.ending '1') "18f4049c21d3a5b7" true, .progress 1 1 .hydrating,
      .storedCursor (.ending '1') "8"] := by
  rfl

theorem run_advances_safely_example :
    .storedCursor (.ending '1') "8" ∈ deliveredPass.before.since deliveredPass.after ∧
      deliveredPass.AdvancesSafely noBundle := by
  have hreads : ∀ p ∈ [deliveredPass], p.ReadsReports := by
    intro p hp results hresults _ e he
    cases List.mem_singleton.mp hp
    have hjournal := delivered_journal
    change .hydrated (.ending '1') results ∈ deliveredPass.before.since deliveredPass.after at hresults
    simp only [hjournal, List.mem_cons, reduceCtorEq, Event.hydrated.injEq, true_and,
      List.not_mem_nil, or_false, false_or] at hresults
    simp [hresults] at he
  exact ⟨by simp [delivered_journal],
    (run_advances_safely (Run.starting _ _ _)).1 hreads _ List.mem_cons_self⟩

end Example

end Fumiko.EmailCore
