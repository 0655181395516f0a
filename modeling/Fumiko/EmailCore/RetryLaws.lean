import Fumiko.EmailCore.CursorLaws
import Fumiko.Foundation.Overwriting
import Fumiko.Storage.EmailLaws

namespace Fumiko.EmailCore

open Fumiko.Common Fumiko.Foundation Fumiko.Foundation.Action Fumiko.Net Fumiko.OAuth
  Fumiko.Program Fumiko.Storage

section Application

variable {account : Uuid} {page : SyncPage} {results : List (Except ProviderError MessageMetadata)}

def fetchResults (provider : EmailProvider) (account : Uuid) (accessToken : String) (page : SyncPage) :
    Program SyncError (List (Except ProviderError MessageMetadata)) := do
  if page.newMessageIds.isEmpty then pure []
  else do
    log (.progress 0 page.newMessageIds.length .hydrating)
    let metadata ← Action.mapError .provider
      (provider.fetchMessageMetadata accessToken page.newMessageIds)
    log (.hydrated account metadata)
    pure metadata

/-- What a pass does with a page once it has these answers, up to the cursor. -/
def applyResults (account : Uuid) (page : SyncPage)
    (results : List (Except ProviderError MessageMetadata)) : Program SyncError Unit := do
  let hydrated ← hydrateAll account page.newMessageIds.length 0 results
  applyRemoteChanges account page
  advanceCursor account page hydrated.2

theorem applyPage_advanceCursor (provider : EmailProvider) (account : Uuid) (accessToken : String)
    (page : SyncPage) :
    (applyPage provider account accessToken page >>= fun hydrated =>
      advanceCursor account page hydrated.2) =
    fetchResults provider account accessToken page >>= applyResults account page := by
  rw [applyPage, hydrate, fetchResults]
  split
  · simp only [bind_assoc, pure_bind, applyResults, hydrateAll]
  · simp only [bind_assoc, pure_bind]
    rfl

end Application

section Refreshing

variable {account : Uuid} {id : String} {result : Except ProviderError MessageMetadata}
  {results before : List (Except ProviderError MessageMetadata)} {rows rows' : List EmailRow}
  {e : EmailRow}

def refreshWith (account : Uuid) : Except ProviderError MessageMetadata → EmailRow → EmailRow
  | .ok m, e =>
    if e.accountId = account ∧ e.providerMessageId = m.id then
      Db.refreshEmail (some m.subject) (some m.sender) m.isRead m.snippet e
    else e
  | .error _, e => e

theorem refreshWith_key (result : Except ProviderError MessageMetadata) (e : EmailRow) :
    (refreshWith account result e).accountId = e.accountId ∧
      (refreshWith account result e).providerMessageId = e.providerMessageId := by
  cases result with
  | error _ => exact ⟨rfl, rfl⟩
  | ok m =>
    rw [refreshWith]
    split <;> exact ⟨rfl, rfl⟩

theorem refreshWith_overwriting (account : Uuid) : Overwriting (refreshWith account) where
  again r e := by
    cases r with
    | error _ => rfl
    | ok m =>
      by_cases hkey : e.accountId = account ∧ e.providerMessageId = m.id
      · cases hsnippet : m.snippet <;> simp [refreshWith, Db.refreshEmail, hkey, hsnippet]
      · simp only [refreshWith, if_neg hkey]
  across r r' e := by
    cases r with
    | error _ => rfl
    | ok m =>
      by_cases hkey : e.accountId = account ∧ e.providerMessageId = m.id
      · cases r' with
        | error _ => cases hsnippet : m.snippet <;> simp [refreshWith, Db.refreshEmail, hkey, hsnippet]
        | ok m' =>
          by_cases hid : m.id = m'.id
          · cases hsnippet : m.snippet <;> cases hsnippet' : m'.snippet <;>
              simp [refreshWith, Db.refreshEmail, hkey, hid, hsnippet, hsnippet']
          · cases hsnippet : m.snippet <;> simp [refreshWith, Db.refreshEmail, hkey, hid, hsnippet]
      · rw [show refreshWith account (.ok m) e = e from if_neg hkey]

def HasEmail (account : Uuid) (id : String) (rows : List EmailRow) : Prop :=
  ∃ e ∈ rows, e.accountId = account ∧ e.providerMessageId = id

theorem hasEmail_map {f : EmailRow → EmailRow}
    (hf : ∀ e, (f e).accountId = e.accountId ∧ (f e).providerMessageId = e.providerMessageId) :
    HasEmail account id (rows.map f) ↔ HasEmail account id rows := by
  simp [HasEmail, hf]

theorem hasEmail_append : HasEmail account id (rows ++ rows') ↔
    HasEmail account id rows ∨ HasEmail account id rows' := by
  simp [HasEmail, or_and_right, exists_or]

structure Fresh (account : Uuid) (result : Except ProviderError MessageMetadata) (rows : List EmailRow)
    (e : EmailRow) : Prop where
  answered : ∃ m, .ok m = result ∧ e.accountId = account ∧ e.providerMessageId = m.id
  settled : refreshWith account result e = e
  absent : ¬HasEmail account e.providerMessageId rows

structure Refreshes (account : Uuid) (result : Except ProviderError MessageMetadata)
    (rows rows' : List EmailRow) : Prop where
  rows : ∃ added, rows' = rows.map (refreshWith account result) ++ added ∧
    ∀ e ∈ added, Fresh account result rows e
  present : ∀ m, .ok m = result → HasEmail account m.id rows'

theorem email_eq_none_iff {db : Db} : db.email account id = none ↔ ¬HasEmail account id db.emails := by
  simp [Db.email, HasEmail]

theorem hydrateOne_refreshes {out : List NewEmail × Bool} {w w' : World}
    (h : hydrateOne account result w = (.ok out, w')) :
    Refreshes account result w.db.emails w'.db.emails := by
  cases result with
  | error e =>
    cases h
    refine ⟨⟨[], ?_, by simp⟩, by simp⟩
    rw [List.append_nil]
    exact (List.map_id _).symm
  | ok m =>
    obtain ⟨row, hsave, -⟩ := hydrateOne_saved h
    obtain ⟨db, hdb, hw, -⟩ := saveEmail_eq_ok hsave
    rw [hw]
    cases Db.saveEmail_saved hdb with
    | again hrow =>
      have hmap : (w.db.updateEmails (fun e => e.accountId = account ∧ e.providerMessageId = m.id)
          (Db.refreshEmail (some m.subject) (some m.sender) m.isRead m.snippet)).emails =
          w.db.emails.map (refreshWith account (.ok m)) := by
        simp only [Db.updateEmails, decide_eq_true_eq]
        rfl
      have hpresent : HasEmail account m.id w.db.emails := by
        by_contra habsent
        rw [email_eq_none_iff.mpr habsent] at hrow
        cases hrow
      rw [hmap]
      refine ⟨⟨[], (List.append_nil _).symm, by simp⟩, ?_⟩
      rintro _ ⟨⟩
      exact (hasEmail_map (refreshWith_key _)).mpr hpresent
    | first hrow =>
      have habsent := email_eq_none_iff.mp hrow
      have hsame : w.db.emails.map (refreshWith account (.ok m)) = w.db.emails := by
        have hfixed : ∀ e ∈ w.db.emails, refreshWith account (.ok m) e = id e :=
          fun e he => if_neg fun hkey => habsent ⟨e, he, hkey⟩
        rw [List.map_congr_left hfixed, List.map_id]
      refine ⟨⟨_, by rw [hsame], ?_⟩, ?_⟩
      · intro e he
        cases List.mem_singleton.mp he
        refine ⟨⟨m, rfl, rfl, rfl⟩, ?_, habsent⟩
        cases hsnippet : m.snippet <;> simp [refreshWith, Db.refreshEmail, hsnippet]
      · rintro _ ⟨⟩
        exact ⟨_, List.mem_append_right _ (List.mem_singleton_self _), rfl, rfl⟩

/-- The table as it is once these answers have been saved: nothing is left for them to do. -/
structure Settled (account : Uuid) (results : List (Except ProviderError MessageMetadata))
    (rows : List EmailRow) : Prop where
  fixed : ∀ e ∈ rows, overwriteAll (refreshWith account) results e = e
  present : ∀ m, .ok m ∈ results → HasEmail account m.id rows

theorem settled_nil : Settled account [] rows := ⟨fun _ _ => rfl, by simp⟩

theorem Settled.overwriteAll_fresh (h : Settled account before rows) (he : Fresh account result rows e) :
    overwriteAll (refreshWith account) before e = e := by
  apply overwriteAll_of_fixed
  intro r hr
  cases r with
  | error _ => rfl
  | ok m =>
    apply if_neg
    rintro ⟨-, hid⟩
    exact he.absent (hid ▸ h.present m hr)

theorem Settled.snoc (h : Settled account before rows) (hrefreshes : Refreshes account result rows rows') :
    Settled account (before ++ [result]) rows' := by
  obtain ⟨added, rfl, hadded⟩ := hrefreshes.rows
  constructor
  · intro e he
    cases List.mem_append.mp he with
    | inl he =>
      obtain ⟨e, hrow, rfl⟩ := List.mem_map.mp he
      exact (refreshWith_overwriting account).settles (h.fixed e hrow)
    | inr he =>
      have hfresh := hadded e he
      rw [overwriteAll_append, h.overwriteAll_fresh hfresh]
      exact hfresh.settled
  · intro m hm
    cases List.mem_append.mp hm with
    | inl hm => exact hasEmail_append.mpr (Or.inl ((hasEmail_map (refreshWith_key _)).mpr (h.present m hm)))
    | inr hm => exact hrefreshes.present m (List.mem_singleton.mp hm)

theorem Refreshes.hasEmail_iff (h : Refreshes account result rows rows') :
    HasEmail account id rows' ↔ HasEmail account id rows ∨ ∃ m, .ok m = result ∧ m.id = id := by
  obtain ⟨added, rfl, hadded⟩ := h.rows
  rw [hasEmail_append, hasEmail_map (refreshWith_key _)]
  constructor
  · rintro (hrow | ⟨e, he, -, rfl⟩)
    · exact Or.inl hrow
    · obtain ⟨m, hm, -, hid⟩ := (hadded e he).answered
      exact Or.inr ⟨m, hm, hid.symm⟩
  · rintro (hrow | ⟨m, hm, rfl⟩)
    · exact Or.inl hrow
    · have hpresent := h.present m hm
      rwa [hasEmail_append, hasEmail_map (refreshWith_key _)] at hpresent

variable {total idx : Nat} {out : List NewEmail × Bool} {w w' : World}

theorem hydrateAll_settled (h : hydrateAll account total idx results w = (.ok out, w'))
    (hbefore : Settled account before w.db.emails) :
    Settled account (before ++ results) w'.db.emails := by
  induction results generalizing idx before w out with
  | nil =>
    cases h
    rwa [List.append_nil]
  | cons result results ih =>
    obtain ⟨first, rest, w₁, hone, hrest, -⟩ := hydrateAll_cons h
    have hfirst : Settled account (before ++ [result]) w₁.db.emails :=
      hbefore.snoc (hydrateOne_refreshes hone)
    rw [List.append_cons]
    exact ih hrest hfirst

theorem hydrateAll_hasEmail (h : hydrateAll account total idx results w = (.ok out, w')) :
    HasEmail account id w'.db.emails ↔ HasEmail account id w.db.emails ∨ ∃ m, .ok m ∈ results ∧ m.id = id := by
  induction results generalizing idx w out with
  | nil =>
    cases h
    simp
  | cons result results ih =>
    obtain ⟨first, rest, w₁, hone, hrest, -⟩ := hydrateAll_cons h
    have hfirst : HasEmail account id w₁.db.emails ↔ _ := (hydrateOne_refreshes hone).hasEmail_iff
    rw [ih hrest]
    change HasEmail account id w₁.db.emails ∨ _ ↔ _
    rw [hfirst]
    simp [or_and_right, exists_or, or_assoc]

def survivors (account : Uuid) (deleted : List String) (rows : List EmailRow) : List EmailRow :=
  rows.filter fun e => !decide (e.accountId = account ∧ e.providerMessageId ∈ deleted)

theorem survivors_map {deleted : List String} {f : EmailRow → EmailRow}
    (hf : ∀ e, (f e).accountId = e.accountId ∧ (f e).providerMessageId = e.providerMessageId) :
    survivors account deleted (rows.map f) = (survivors account deleted rows).map f := by
  rw [survivors, List.filter_map]
  simp only [Function.comp_def, hf]
  rfl

theorem hydrateAll_survivors {deleted : List String}
    (h : hydrateAll account total idx results w = (.ok out, w'))
    (hpresent : ∀ m, .ok m ∈ results → m.id ∈ deleted ∨ HasEmail account m.id w.db.emails) :
    survivors account deleted w'.db.emails =
      (survivors account deleted w.db.emails).map (overwriteAll (refreshWith account) results) := by
  induction results generalizing idx w out with
  | nil =>
    cases h
    exact (List.map_id _).symm
  | cons result results ih =>
    obtain ⟨first, rest, w₁, hone, hrest, -⟩ := hydrateAll_cons h
    have hrefreshes := hydrateOne_refreshes hone
    have hlater : ∀ m, .ok m ∈ results → m.id ∈ deleted ∨ HasEmail account m.id w₁.db.emails :=
      fun m hm => (hpresent m (List.mem_cons_of_mem _ hm)).imp_right fun hrow =>
        hrefreshes.hasEmail_iff.mpr (Or.inl hrow)
    rw [ih hrest hlater]
    obtain ⟨added, hrows, hadded⟩ := hrefreshes.rows
    have hgone : survivors account deleted added = [] := by
      apply List.filter_eq_nil_iff.mpr
      intro e he
      obtain ⟨m, hm, haccount, hid⟩ := (hadded e he).answered
      have hdeleted : m.id ∈ deleted := (hpresent m (hm ▸ List.mem_cons_self)).resolve_right
        (hid ▸ (hadded e he).absent)
      simp [haccount, hid, hdeleted]
    change (survivors account deleted w₁.db.emails).map _ = _
    rw [hrows, survivors, List.filter_append, ← survivors, ← survivors, hgone, List.append_nil,
      survivors_map (refreshWith_key _), List.map_map]
    rfl

end Refreshing

section Flags

variable {account : Uuid} {ids : List String} {w w' : World}

def Ticks (w w' : World) : Prop := w'.outside.clock <:+ w.outside.clock

instance : Std.Refl Ticks := ⟨fun _ => List.suffix_rfl⟩

instance : IsTrans World Ticks := ⟨fun _ _ _ h₁ h₂ => List.IsSuffix.trans h₂ h₁⟩

theorem ticks_statement {α : Type} (f : Db → Except StorageError (α × Db)) : Moves Ticks (statement f) :=
  moves_statement (fun _ => List.suffix_rfl) fun _ _ _ _ => List.suffix_rfl

theorem ticks_unixTimestamp {ε : Type} : Moves Ticks (unixTimestamp : Program ε Int) :=
  moves_step fun _ => List.tail_suffix _

theorem ticks_freshUuid {ε : Type} : Moves Ticks (freshUuid : Program ε Uuid) :=
  moves_step fun _ => List.suffix_rfl

theorem ticks_log {ε : Type} (e : Event) : Moves Ticks (log e : Program ε Unit) :=
  moves_update fun _ => List.suffix_rfl

theorem ticks_hydrateAll (account : Uuid) (total idx : Nat)
    (results : List (Except ProviderError MessageMetadata)) :
    Moves Ticks (hydrateAll account total idx results) := by
  apply moves_hydrateAll fun _ _ _ _ => List.suffix_rfl
  intro id subject sender receivedAt isRead snippet
  apply moves_bind ticks_freshUuid
  intro fresh
  apply moves_bind ticks_unixTimestamp
  intro now
  apply moves_bind (moves_read _)
  intro isNew
  apply moves_bind (ticks_statement _)
  intro row
  exact moves_bind (ticks_log _) fun _ => moves_pure _

theorem ticks_advanceCursor (account : Uuid) (page : SyncPage) (failed : Bool) :
    Moves Ticks (advanceCursor account page failed) := by
  rw [advanceCursor]
  split
  · exact moves_pure _
  · exact moves_mapError <| moves_bind ticks_unixTimestamp fun _ =>
      moves_bind (ticks_statement _) fun _ => ticks_log _

theorem Ticks.ne_nil (h : Ticks w w') (hleft : w'.outside.clock ≠ []) : w.outside.clock ≠ [] := by
  rintro hempty
  rw [Ticks, hempty, List.suffix_nil] at h
  exact hleft h

theorem nextTime_mem (h : w.outside.clock ≠ []) : w.nextTime ∈ w.outside.clock := by
  cases hclock : w.outside.clock with
  | nil => exact absurd hclock h
  | cons t clock =>
    rw [World.nextTime, hclock]
    exact List.mem_cons_self

def trashWith (account : Uuid) (ids : List String) (time : String → Int) (e : EmailRow) : EmailRow :=
  if e.accountId = account ∧ e.providerMessageId ∈ ids then
    { e with isTrashed := true, trashedAt := some (time e.providerMessageId) }
  else e

def untrashWith (account : Uuid) (ids : List String) (e : EmailRow) : EmailRow :=
  if e.accountId = account ∧ e.providerMessageId ∈ ids then
    { e with isTrashed := false, trashedAt := none }
  else e

theorem trashWith_cons {id : String} {now : Int} {time : String → Int} (e : EmailRow) :
    trashWith account ids time
        (if e.accountId = account ∧ e.providerMessageId = id then
          { e with isTrashed := true, trashedAt := some now } else e) =
      trashWith account (id :: ids) (fun key => if key ∈ ids then time key else now) e := by
  by_cases haccount : e.accountId = account
  · by_cases hid : e.providerMessageId = id
    · by_cases hlater : id ∈ ids <;> simp [trashWith, haccount, hid, hlater]
    · by_cases hlater : e.providerMessageId ∈ ids <;> simp [trashWith, haccount, hid, hlater]
  · simp [trashWith, haccount]

theorem forEach_markTrashed (h : forEach (markTrashed account) ids w = (.ok (), w')) :
    ∃ time, w'.db.emails = w.db.emails.map (trashWith account ids time) ∧ Ticks w w' ∧
      (w'.outside.clock ≠ [] → ∀ id ∈ ids, time id ∈ w.outside.clock) := by
  induction ids generalizing w with
  | nil =>
    cases h
    have hsame : trashWith account [] (fun _ => 0) = id := by
      funext e
      simp [trashWith]
    exact ⟨fun _ => 0, by rw [hsame, List.map_id], Std.Refl.refl _, by simp⟩
  | cons id ids ih =>
    obtain ⟨u, w₁, hone, hrest⟩ := bind_eq_ok.mp
      (show (markTrashed account id >>= fun _ => forEach (markTrashed account) ids) w = _ from h)
    have hdb := markTrashed_eq_ok hone
    have hticks : Ticks w w₁ :=
      (moves_bind ticks_unixTimestamp fun _ => ticks_statement _).of_eq hone
    obtain ⟨time, hrows, hafter, htimes⟩ := ih hrest
    refine ⟨fun key => if key ∈ ids then time key else w.nextTime, ?_, IsTrans.trans _ _ _ hticks hafter, ?_⟩
    · rw [hrows, hdb]
      simp only [Db.markTrashed, Db.updateEmails, List.map_map, decide_eq_true_eq]
      apply List.map_congr_left
      intro e _
      exact trashWith_cons e
    · intro hleft key hkey
      change (if key ∈ ids then time key else w.nextTime) ∈ w.outside.clock
      by_cases hlater : key ∈ ids
      · rw [if_pos hlater]
        exact hticks.subset (htimes hleft key hlater)
      · rw [if_neg hlater]
        exact nextTime_mem ((IsTrans.trans _ _ _ hticks hafter : Ticks w w').ne_nil hleft)

theorem forEach_markUntrashed (h : forEach (markUntrashed account) ids w = (.ok (), w')) :
    w'.db.emails = w.db.emails.map (untrashWith account ids) ∧ Ticks w w' := by
  induction ids generalizing w with
  | nil =>
    cases h
    have hsame : untrashWith account [] = id := by
      funext e
      simp [untrashWith]
    exact ⟨by rw [hsame, List.map_id], Std.Refl.refl _⟩
  | cons id ids ih =>
    obtain ⟨u, w₁, hone, hrest⟩ := bind_eq_ok.mp
      (show (markUntrashed account id >>= fun _ => forEach (markUntrashed account) ids) w = _ from h)
    have hdb := markUntrashed_eq_ok hone
    have hticks : Ticks w w₁ := (ticks_statement _).of_eq hone
    obtain ⟨hrows, hafter⟩ := ih hrest
    refine ⟨?_, IsTrans.trans _ _ _ hticks hafter⟩
    rw [hrows, hdb]
    simp only [Db.markUntrashed, Db.updateEmails, List.map_map, decide_eq_true_eq]
    apply List.map_congr_left
    intro e _
    by_cases haccount : e.accountId = account
    · by_cases hid : e.providerMessageId = id <;> simp [untrashWith, haccount, hid]
    · simp [untrashWith, haccount]

theorem forEach_delete (h : forEach (deleteByProviderMessageId account) ids w = (.ok (), w')) :
    w'.db.emails = survivors account ids w.db.emails ∧ Ticks w w' := by
  induction ids generalizing w with
  | nil =>
    cases h
    refine ⟨?_, Std.Refl.refl _⟩
    simp [survivors]
  | cons id ids ih =>
    obtain ⟨u, w₁, hone, hrest⟩ := bind_eq_ok.mp
      (show (deleteByProviderMessageId account id >>= fun _ =>
        forEach (deleteByProviderMessageId account) ids) w = _ from h)
    have hdb := deleteByProviderMessageId_eq_ok hone
    have hticks : Ticks w w₁ := (ticks_statement _).of_eq hone
    obtain ⟨hrows, hafter⟩ := ih hrest
    refine ⟨?_, IsTrans.trans _ _ _ hticks hafter⟩
    rw [hrows, hdb]
    simp only [Db.deleteByProviderMessageId, Db.deleteEmails, survivors, List.filter_filter]
    apply List.filter_congr
    intro e _
    by_cases haccount : e.accountId = account <;> simp [haccount, Bool.and_comm]

variable {page : SyncPage} {e : EmailRow}

def flagWith (account : Uuid) (page : SyncPage) (time : String → Int) (e : EmailRow) : EmailRow :=
  untrashWith account page.restoredMessageIds (trashWith account page.trashedMessageIds time e)

theorem trashWith_key (time : String → Int) (e : EmailRow) :
    (trashWith account ids time e).accountId = e.accountId ∧
      (trashWith account ids time e).providerMessageId = e.providerMessageId := by
  rw [trashWith]
  split <;> exact ⟨rfl, rfl⟩

theorem untrashWith_key (e : EmailRow) : (untrashWith account ids e).accountId = e.accountId ∧
    (untrashWith account ids e).providerMessageId = e.providerMessageId := by
  rw [untrashWith]
  split <;> exact ⟨rfl, rfl⟩

theorem flagWith_key (time : String → Int) (e : EmailRow) :
    (flagWith account page time e).accountId = e.accountId ∧
      (flagWith account page time e).providerMessageId = e.providerMessageId := by
  simp only [flagWith, untrashWith_key, trashWith_key, and_self]

theorem applyRemoteChanges_rows (h : applyRemoteChanges account page w = (.ok (), w')) :
    ∃ time, w'.db.emails =
        (survivors account page.deletedMessageIds w.db.emails).map (flagWith account page time) ∧
      Ticks w w' ∧
      (w'.outside.clock ≠ [] → ∀ id ∈ page.trashedMessageIds, time id ∈ w.outside.clock) := by
  obtain ⟨u, w₁, htrash, h⟩ := bind_eq_ok.mp (mapError_eq_ok.mp h)
  obtain ⟨u', w₂, hrestore, hdelete⟩ := bind_eq_ok.mp h
  obtain ⟨time, hrows₁, hticks₁, htimes⟩ := forEach_markTrashed htrash
  obtain ⟨hrows₂, hticks₂⟩ := forEach_markUntrashed hrestore
  obtain ⟨hrows₃, hticks₃⟩ := forEach_delete hdelete
  have hlater : Ticks w₁ w' := IsTrans.trans _ _ _ hticks₂ hticks₃
  refine ⟨time, ?_, IsTrans.trans _ _ _ hticks₁ hlater, fun hleft => htimes (hlater.ne_nil hleft)⟩
  rw [hrows₃, hrows₂, hrows₁, survivors_map untrashWith_key, survivors_map (trashWith_key time),
    List.map_map]
  rfl

theorem flagWith_flagWith {time time' : String → Int}
    (hlater : ∀ id ∈ page.trashedMessageIds, time id ≠ time' id) :
    flagWith account page time' (flagWith account page time e) = flagWith account page time e ↔
      ¬(e.accountId = account ∧ e.providerMessageId ∈ page.trashedMessageIds ∧
        e.providerMessageId ∉ page.restoredMessageIds) := by
  by_cases haccount : e.accountId = account
  · by_cases hrestored : e.providerMessageId ∈ page.restoredMessageIds
    · by_cases htrashed : e.providerMessageId ∈ page.trashedMessageIds <;>
        simp [flagWith, untrashWith, trashWith, haccount, hrestored, htrashed]
    · by_cases htrashed : e.providerMessageId ∈ page.trashedMessageIds
      · have hne := hlater _ htrashed
        simp [flagWith, untrashWith, trashWith, haccount, hrestored, htrashed, Ne.symm hne]
      · simp [flagWith, untrashWith, trashWith, haccount, hrestored, htrashed]
  · simp [flagWith, untrashWith, trashWith, haccount]

theorem overwriteAll_flagWith (results : List (Except ProviderError MessageMetadata))
    (time : String → Int) (e : EmailRow) :
    overwriteAll (refreshWith account) results (flagWith account page time e) =
      flagWith account page time (overwriteAll (refreshWith account) results e) := by
  apply overwriteAll_comm
  intro r e
  cases r with
  | error _ => rfl
  | ok m =>
    by_cases hkey : e.accountId = account ∧ e.providerMessageId = m.id
    · by_cases htrashed : m.id ∈ page.trashedMessageIds <;>
        by_cases hrestored : m.id ∈ page.restoredMessageIds <;>
        simp [refreshWith, flagWith, untrashWith, trashWith, Db.refreshEmail, hkey, htrashed, hrestored]
    · have hflagged : refreshWith account (.ok m) (flagWith account page time e) =
          flagWith account page time e := by
        rw [refreshWith, if_neg]
        simpa only [flagWith_key] using hkey
      rw [hflagged, refreshWith, if_neg hkey]

end Flags

section Repetition

variable {account : Uuid} {id : String} {page : SyncPage} {rows : List EmailRow}
  {results : List (Except ProviderError MessageMetadata)} {w w₁ v v₁ : World}

def HoldsBack (results : List (Except ProviderError MessageMetadata)) : Prop :=
  ∃ e, .error e ∈ results ∧ ¬isNotFoundError e

structure Writes (account : Uuid) (page : SyncPage) (results : List (Except ProviderError MessageMetadata))
    (w : World) (rows : List EmailRow) (w₁ : World) : Prop where
  emails : ∃ time, w₁.db.emails =
      (survivors account page.deletedMessageIds rows).map (flagWith account page time) ∧
    (w₁.outside.clock ≠ [] → ∀ id ∈ page.trashedMessageIds, time id ∈ w.outside.clock)
  held : HoldsBack results → w₁.db.linkedAccounts = w.db.linkedAccounts
  stored : ¬HoldsBack results → ∃ now, w₁.db.linkedAccounts =
      (w.db.updateSyncCursor now account page.nextCursor).linkedAccounts ∧
    (w₁.outside.clock ≠ [] → now ∈ w.outside.clock)

theorem failed_iff {failed : Bool} (h : failed = false ↔ ∀ e, .error e ∈ results → isNotFoundError e) :
    failed = true ↔ HoldsBack results := by
  rw [← Bool.not_eq_false, h]
  simp [HoldsBack]

theorem applyResults_writes (h : applyResults account page results w = (.ok (), w₁)) :
    ∃ out u, hydrateAll account page.newMessageIds.length 0 results w = (.ok out, u) ∧
      Writes account page results w u.db.emails w₁ := by
  obtain ⟨⟨saved, failed⟩, u, hhydrate, h⟩ := bind_eq_ok.mp h
  obtain ⟨_, u₁, hremote, hadvance⟩ := bind_eq_ok.mp h
  have hfailed := failed_iff (hydrateAll_eq_ok hhydrate).1
  have hsaving : Ticks w u := (ticks_hydrateAll _ _ _ _).of_eq hhydrate
  have haccounts : u₁.db.linkedAccounts = w.db.linkedAccounts := by
    have hsaved := ((moves_hydrateAll (fun _ _ _ => leaves_admits trivial)
      (leaves_saveEmail (fun _ _ _ _ => trivial) _) _ _ _ :
        Moves (Leaves fun _ => True) (hydrateAll account _ 0 results)).of_eq hhydrate).accounts
    have hflagged := ((leaves_applyRemoteChanges account page :
      Moves (Leaves fun _ => True) _).of_eq hremote).accounts
    exact hflagged.trans hsaved
  obtain ⟨time, hrows, hflagging, htimes⟩ := applyRemoteChanges_rows hremote
  have hto : Ticks w u₁ := IsTrans.trans _ _ _ hsaving hflagging
  refine ⟨(saved, failed), u, hhydrate, ?_⟩
  cases failed with
  | true =>
    cases hadvance
    have hheld := hfailed.mp rfl
    exact ⟨⟨time, hrows, fun hleft id hid => hsaving.subset (htimes hleft id hid)⟩, fun _ => haccounts,
      fun hfree => absurd hheld hfree⟩
  | false =>
    rw [advanceCursor_false] at hadvance
    have hstore := mapError_eq_ok.mp hadvance
    have hdb := (updateSyncCursor_eq_ok hstore).1
    have hstamping : Ticks u₁ w₁ := (ticks_advanceCursor account page false).of_eq hadvance
    have hfree : ¬HoldsBack results := fun hheld => by
      cases hfailed.mpr hheld
    refine ⟨⟨time, ?_, ?_⟩, fun hheld => absurd hheld hfree, fun _ => ⟨u₁.nextTime, ?_, ?_⟩⟩
    · rw [hdb]
      exact hrows
    · intro hleft id hid
      exact hsaving.subset (htimes (hstamping.ne_nil hleft) id hid)
    · rw [hdb]
      simp only [Db.updateSyncCursor, Db.updateAccounts, haccounts]
    · intro hleft
      exact hto.subset (nextTime_mem (hstamping.ne_nil hleft))

theorem hasEmail_survivors {deleted : List String} :
    HasEmail account id (survivors account deleted rows) ↔ HasEmail account id rows ∧ id ∉ deleted := by
  simp only [HasEmail, survivors, List.mem_filter, Bool.not_eq_true', decide_eq_false_iff_not]
  constructor
  · rintro ⟨e, ⟨he, hkept⟩, haccount, rfl⟩
    exact ⟨⟨e, he, haccount, rfl⟩, fun hdeleted => hkept ⟨haccount, hdeleted⟩⟩
  · rintro ⟨⟨e, he, haccount, rfl⟩, hkept⟩
    exact ⟨e, ⟨he, fun hdeleted => hkept hdeleted.2⟩, haccount, rfl⟩

theorem survivors_survivors {deleted : List String} :
    survivors account deleted (survivors account deleted rows) = survivors account deleted rows := by
  simp [survivors]

theorem emails_again {out : List NewEmail × Bool} {u : World} {total : Nat} {time : String → Int}
    (hsettled : Settled account results rows)
    (hfirst : v.db.emails =
      (survivors account page.deletedMessageIds rows).map (flagWith account page time))
    (hsecond : hydrateAll account total 0 results v = (.ok out, u)) :
    survivors account page.deletedMessageIds u.db.emails = v.db.emails := by
  have hpresent : ∀ m, .ok m ∈ results → m.id ∈ page.deletedMessageIds ∨ HasEmail account m.id v.db.emails := by
    intro m hm
    by_cases hdeleted : m.id ∈ page.deletedMessageIds
    · exact Or.inl hdeleted
    · rw [hfirst, hasEmail_map (flagWith_key time), hasEmail_survivors]
      exact Or.inr ⟨hsettled.present m hm, hdeleted⟩
  have hfixed : ∀ e ∈ survivors account page.deletedMessageIds rows,
      overwriteAll (refreshWith account) results (flagWith account page time e) =
        flagWith account page time e := by
    intro e he
    rw [overwriteAll_flagWith, hsettled.fixed e (List.mem_filter.mp he).1]
  rw [hydrateAll_survivors hsecond hpresent, hfirst, survivors_map (flagWith_key time),
    survivors_survivors, List.map_map]
  exact List.map_congr_left hfixed

/-- The clock has readings left after each application, and those of the second one are later. -/
structure Later (w w₁ v v₁ : World) : Prop where
  first : w₁.outside.clock ≠ []
  second : v₁.outside.clock ≠ []
  later : ∀ s ∈ w.outside.clock, ∀ t ∈ v.outside.clock, s < t

def NothingTrashed (account : Uuid) (page : SyncPage)
    (results : List (Except ProviderError MessageMetadata)) (w : World) : Prop :=
  ∀ id ∈ page.trashedMessageIds, id ∈ page.restoredMessageIds ∨ id ∈ page.deletedMessageIds ∨
    ¬HasEmail account id w.db.emails ∧ ∀ m, .ok m ∈ results → m.id ≠ id

def Unlinked (account : Uuid) (w : World) : Prop := ∀ a ∈ w.db.linkedAccounts, a.id ≠ account

theorem forall_row_iff : (∀ e ∈ rows, ¬(e.accountId = account ∧
      e.providerMessageId ∈ page.trashedMessageIds ∧ e.providerMessageId ∉ page.restoredMessageIds)) ↔
    ∀ id ∈ page.trashedMessageIds, id ∈ page.restoredMessageIds ∨ ¬HasEmail account id rows := by
  constructor
  · intro h id hid
    by_cases hrestored : id ∈ page.restoredMessageIds
    · exact Or.inl hrestored
    · refine Or.inr ?_
      rintro ⟨e, he, haccount, rfl⟩
      exact h e he ⟨haccount, hid, hrestored⟩
  · rintro h e he ⟨haccount, htrashed, hrestored⟩
    exact (h _ htrashed).elim hrestored fun habsent => habsent ⟨e, he, haccount, rfl⟩

theorem emails_idempotent_iff (hfirst : applyResults account page results w = (.ok (), w₁))
    (hdb : v.db = w₁.db) (hsecond : applyResults account page results v = (.ok (), v₁))
    (hlater : Later w w₁ v v₁) :
    v₁.db.emails = w₁.db.emails ↔ NothingTrashed account page results w := by
  obtain ⟨out, u, hhydrate, hwrites⟩ := applyResults_writes hfirst
  obtain ⟨out', u', hhydrate', hwrites'⟩ := applyResults_writes hsecond
  obtain ⟨time, hrows, htimes⟩ := hwrites.emails
  obtain ⟨time', hrows', htimes'⟩ := hwrites'.emails
  have hsettled : Settled account results u.db.emails := hydrateAll_settled hhydrate settled_nil
  have hagain := emails_again hsettled (by rw [hdb, hrows]) hhydrate'
  have hne : ∀ id ∈ page.trashedMessageIds, time id ≠ time' id := fun id hid =>
    (hlater.later _ (htimes hlater.first id hid) _ (htimes' hlater.second id hid)).ne
  rw [hrows', hagain, hdb, hrows, List.map_map, List.map_inj_left]
  simp only [Function.comp_apply, flagWith_flagWith hne]
  rw [forall_row_iff, NothingTrashed]
  apply forall₂_congr
  intro id _
  rw [hasEmail_survivors, hydrateAll_hasEmail hhydrate]
  simp only [not_and_or, not_or, not_not, not_exists, ne_eq, imp_iff_not_or]
  rw [or_comm (a := ¬HasEmail account id w.db.emails ∧ _)]

theorem accounts_idempotent_iff (hfirst : applyResults account page results w = (.ok (), w₁))
    (hdb : v.db = w₁.db) (hsecond : applyResults account page results v = (.ok (), v₁))
    (hlater : Later w w₁ v v₁) :
    v₁.db.linkedAccounts = w₁.db.linkedAccounts ↔ HoldsBack results ∨ Unlinked account w := by
  obtain ⟨out, u, -, hwrites⟩ := applyResults_writes hfirst
  obtain ⟨out', u', -, hwrites'⟩ := applyResults_writes hsecond
  by_cases hheld : HoldsBack results
  · rw [hwrites'.held hheld, hdb]
    exact iff_of_true rfl (Or.inl hheld)
  · obtain ⟨now, haccounts, hnow⟩ := hwrites.stored hheld
    obtain ⟨now', haccounts', hnow'⟩ := hwrites'.stored hheld
    have hne : now' ≠ now := (hlater.later now (hnow hlater.first) now' (hnow' hlater.second)).ne'
    rw [haccounts', Db.updateSyncCursor, Db.updateAccounts, hdb, haccounts, Db.updateSyncCursor,
      Db.updateAccounts, List.map_map, List.map_inj_left]
    simp only [hheld, false_or, Unlinked]
    apply forall₂_congr
    intro a _
    by_cases hid : a.id = account <;> simp [hid, hne]

end Repetition

/-- A second application with the same answers leaves both tables as they are exactly when no
message stays in the trash and the cursor is held back. -/
theorem applyResults_idempotent_iff {account : Uuid} {page : SyncPage}
    {results : List (Except ProviderError MessageMetadata)} {w w₁ v v₁ : World}
    (hfirst : applyResults account page results w = (.ok (), w₁)) (hdb : v.db = w₁.db)
    (hsecond : applyResults account page results v = (.ok (), v₁)) (hlater : Later w w₁ v v₁) :
    (v₁.db.emails = w₁.db.emails ∧ v₁.db.linkedAccounts = w₁.db.linkedAccounts) ↔
      NothingTrashed account page results w ∧ (HoldsBack results ∨ Unlinked account w) :=
  and_congr (emails_idempotent_iff hfirst hdb hsecond hlater)
    (accounts_idempotent_iff hfirst hdb hsecond hlater)

section Example

def heldPage : SyncPage := ⟨["m2"], ["m1"], [], [], "8", false⟩

def heldResults : List (Except ProviderError MessageMetadata) := [.error .rateLimited]

def retryRow : EmailRow where
  id := .ending '2'
  accountId := outageAccount.id
  providerMessageId := "m1"
  subject := none
  sender := none
  receivedAt := 0
  isRead := true
  appHasViewed := false
  isTrashed := false
  trashedAt := none
  snippet := none
  createdAt := 0

def storeWith (emails : List EmailRow) : Db := { Db.empty with linkedAccounts := [outageAccount], emails }

def atTimes (db : Db) (clock : List Int) : World := ⟨db, fun _ => none, [], [], { clock }⟩

def firstTry (emails : List EmailRow) : World :=
  (applyResults outageAccount.id heldPage heldResults (atTimes (storeWith emails) [1, 2])).2

def secondTry (emails : List EmailRow) : World :=
  (applyResults outageAccount.id heldPage heldResults (atTimes (firstTry emails).db [100, 101])).2

theorem firstTry_run (emails : List EmailRow) :
    applyResults outageAccount.id heldPage heldResults (atTimes (storeWith emails) [1, 2]) =
      (.ok (), firstTry emails) := rfl

theorem secondTry_db (emails : List EmailRow) :
    (atTimes (firstTry emails).db [100, 101]).db = (firstTry emails).db := rfl

theorem secondTry_run (emails : List EmailRow) :
    applyResults outageAccount.id heldPage heldResults (atTimes (firstTry emails).db [100, 101]) =
      (.ok (), secondTry emails) := rfl

theorem tries_later (emails : List EmailRow) : Later (atTimes (storeWith emails) [1, 2])
    (firstTry emails) (atTimes (firstTry emails).db [100, 101]) (secondTry emails) := by
  have hfirst : (firstTry emails).outside.clock = [2] := rfl
  have hsecond : (secondTry emails).outside.clock = [101] := rfl
  exact ⟨by simp [hfirst], by simp [hsecond], by simp [atTimes]⟩

theorem applyResults_restarts_retention :
    ¬∀ (account : Uuid) (page : SyncPage) (results : List (Except ProviderError MessageMetadata))
      (w w₁ v v₁ : World), applyResults account page results w = (.ok (), w₁) → v.db = w₁.db →
      applyResults account page results v = (.ok (), v₁) → Later w w₁ v v₁ →
      v₁.db.emails = w₁.db.emails ∧ v₁.db.linkedAccounts = w₁.db.linkedAccounts := by
  intro h
  have hsame := (h _ _ _ _ _ _ _ (firstTry_run [retryRow]) (secondTry_db _) (secondTry_run [retryRow])
    (tries_later [retryRow])).1
  have hdates := congrArg (List.map EmailRow.trashedAt) hsame
  revert hdates
  decide

theorem applyResults_idempotent_iff_example :
    (secondTry []).db.emails = (firstTry []).db.emails ∧
      (secondTry []).db.linkedAccounts = (firstTry []).db.linkedAccounts := by
  refine (applyResults_idempotent_iff (firstTry_run []) (secondTry_db []) (secondTry_run [])
    (tries_later [])).mpr ⟨?_, Or.inl ?_⟩
  · intro id _
    exact Or.inr (Or.inr ⟨by simp [HasEmail, atTimes, storeWith, Db.empty], by simp [heldResults]⟩)
  · exact ⟨.rateLimited, List.mem_singleton_self _, by decide⟩

end Example

end Fumiko.EmailCore
