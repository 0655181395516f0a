import Fumiko.EmailCore.TwinPassLaws

namespace Fumiko.EmailCore

open Fumiko.Common Fumiko.Foundation Fumiko.Foundation.Action Fumiko.Net Fumiko.OAuth
  Fumiko.Program Fumiko.Storage

section Loop

variable {bundled : Bundled}

def syncInTurn (bundled : Bundled) : List (LinkedAccount × Outside) → World → World
  | [], w => w
  | (account, outside) :: turns, w =>
    syncInTurn bundled turns (syncOneAccount bundled account { w with outside }).2

theorem syncInTurn_append (turns turns' : List (LinkedAccount × Outside)) (w : World) :
    syncInTurn bundled (turns ++ turns') w = syncInTurn bundled turns' (syncInTurn bundled turns w) := by
  induction turns generalizing w with
  | nil => rfl
  | cons turn turns ih => exact ih _

theorem syncAccounts_inTurn (bundled : Bundled) (accounts : List LinkedAccount) (w : World) :
    ∃ turns, turns.map Prod.fst = accounts ∧
      syncAccounts bundled accounts w = (.ok (), syncInTurn bundled turns w) := by
  induction accounts generalizing w with
  | nil => exact ⟨[], rfl, rfl⟩
  | cons account accounts ih =>
    obtain ⟨turns, haccounts, hrest⟩ := ih (syncOneAccount bundled account w).2
    exact ⟨(account, w.outside) :: turns, by rw [List.map_cons, haccounts], hrest⟩

def purgeTrash : Program SyncError Unit := do
  let setting ← settingOrNone SettingKeys.trashRetentionDays
  let retentionDays := (setting.bind Decimal.parseI64).getD Config.defaultTrashRetentionDays
  Action.ignore (purgeExpiredTrash retentionDays)

theorem syncAll_inTurn (bundled : Bundled) {accounts : List LinkedAccount} {w w₁ : World}
    (hlist : listAccounts w = (.ok accounts, w₁)) :
    ∃ turns, turns.map Prod.fst = accounts ∧ syncAll bundled w = purgeTrash (syncInTurn bundled turns w₁) := by
  obtain ⟨turns, haccounts, hloop⟩ := syncAccounts_inTurn bundled accounts w₁
  refine ⟨turns, haccounts, ?_⟩
  change (mapError SyncError.database listAccounts >>= fun accounts =>
    syncAccounts bundled accounts >>= fun _ => purgeTrash) w = _
  rw [bind_run, mapError_eq_ok.mpr hlist]
  dsimp only
  rw [bind_run, hloop]

theorem listAccounts_ids {accounts : List LinkedAccount} {w w₁ : World} (h : w.db.WellFormed)
    (hlist : listAccounts w = (.ok accounts, w₁)) : (accounts.map LinkedAccount.id).Nodup := by
  rw [listAccounts, query_run] at hlist
  split at hlist
  · cases hlist
  · cases hlist
    exact ((List.perm_insertionSort _ _).map _).nodup_iff.mpr h.accountsPk

end Loop

section Spared

variable {bundled : Bundled} {account : Uuid} {w₀ w : World}

/-- What a pass over the account starts from is as it was in `w₀`. -/
structure Spared (account : Uuid) (w₀ w : World) : Prop where
  keyed : w.db.Keyed
  rows : w.db.rowsOfOne account = w₀.db.rowsOfOne account
  secret : w.keyring account.text = w₀.keyring account.text
  clientSecret : w.keyring KeyringKeys.userGoogleClientSecret = w₀.keyring KeyringKeys.userGoogleClientSecret
  token : w.tokenCache.find? (·.1 = account) = w₀.tokenCache.find? (·.1 = account)

theorem Uuid.text_ne {u v : Uuid} (h : u ≠ v) : u.text ≠ v.text := by
  intro htext
  cases u
  cases v
  exact h (by simpa using htext)

theorem clientSecret_ne (u : Uuid) : KeyringKeys.userGoogleClientSecret ≠ u.text := by
  intro htext
  have hlength := u.canonical
  rw [← htext] at hlength
  exact absurd hlength (by decide)

theorem Spared.syncOneAccount (h : Spared account w₀ w) {other : LinkedAccount} (hother : other.id ≠ account)
    (outside : Outside) :
    Spared account w₀ (syncOneAccount bundled other { w with outside }).2 := by
  have hisolated := @syncOneAccount_isolates other bundled { w with outside } h.keyed
  constructor
  · exact hisolated.keyed
  · exact (hisolated.rowsOf_eq hother.symm).trans h.rows
  · exact (hisolated.keyring _ (Uuid.text_ne hother.symm)).trans h.secret
  · exact (hisolated.keyring _ (clientSecret_ne _)).trans h.clientSecret
  · exact (hisolated.tokenCache _ hother.symm).trans h.token

theorem Spared.syncInTurn (h : Spared account w₀ w) {turns : List (LinkedAccount × Outside)}
    (hothers : ∀ turn ∈ turns, turn.1.id ≠ account) : Spared account w₀ (syncInTurn bundled turns w) := by
  induction turns generalizing w with
  | nil => exact h
  | cons turn turns ih =>
    obtain ⟨hfirst, hrest⟩ := List.forall_mem_cons.mp hothers
    exact ih (h.syncOneAccount hfirst turn.2) hrest

end Spared

section Course

structure Course (account : LinkedAccount) where
  before : List (LinkedAccount × Outside)
  outside : Outside
  after : List (LinkedAccount × Outside)
  others : ∀ turn ∈ before ++ after, turn.1.id ≠ account.id

variable {bundled : Bundled} {account : LinkedAccount} {w : World} {ρ : Uuid → Uuid}

namespace Course

def turn (bundled : Bundled) (w : World) (c : Course account) : World :=
  { syncInTurn bundled c.before w with outside := c.outside }

def outcome (bundled : Bundled) (w : World) (c : Course account) : Except SyncError Unit :=
  (syncOneAccount bundled account (c.turn bundled w)).1

def final (bundled : Bundled) (w : World) (c : Course account) : World :=
  syncInTurn bundled c.after (syncOneAccount bundled account (c.turn bundled w)).2

theorem final_eq (c : Course account) :
    c.final bundled w = syncInTurn bundled (c.before ++ (account, c.outside) :: c.after) w :=
  (syncInTurn_append c.before ((account, c.outside) :: c.after) w).symm

theorem exists_course {turns : List (LinkedAccount × Outside)} (hids : (turns.map (·.1.id)).Nodup)
    (haccount : account ∈ turns.map Prod.fst) :
    ∃ c : Course account, syncInTurn bundled turns w = c.final bundled w := by
  obtain ⟨⟨account, o⟩, hturn, rfl⟩ := List.mem_map.mp haccount
  obtain ⟨before, after, rfl⟩ := List.append_of_mem hturn
  rw [List.map_append, List.map_cons, List.nodup_middle, List.nodup_cons, ← List.map_append] at hids
  have hothers : ∀ turn ∈ before ++ after, turn.1.id ≠ account.id := fun turn hturn hsame =>
    hids.1 (List.mem_map.mpr ⟨turn, hturn, hsame⟩)
  exact ⟨⟨before, o, after, hothers⟩, (final_eq ⟨before, o, after, hothers⟩).symm⟩

/-- The account has the same answers in both loops, where the ids generated for it may be others.
`ρ` names the ids of the first loop in the second. -/
structure SameAnswers (bundled : Bundled) (w : World) (ρ : Uuid → Uuid) (c c' : Course account) : Prop where
  injective : Function.Injective ρ
  noUuid : ρ noUuid = noUuid
  kept : w.db.seen account.id id = w.db.seen account.id ρ
  answers : EmailCore.answers c'.outside = EmailCore.answers c.outside
  uuids : c'.outside.uuids = c.outside.uuids.map ρ
  unused : Unused account.id (c.turn bundled w) c.outside.uuids
  unused' : Unused account.id (c'.turn bundled w) c'.outside.uuids
  ties : Db.TiesAlike ρ c.outside.ranking c'.outside.ranking

/-- The token that is cached for the account is good in both turns or in neither. -/
def SameToken (w : World) (c c' : Course account) : Prop :=
  TokenGood account.id { w with outside := c.outside } ↔ TokenGood account.id { w with outside := c'.outside }

def SameDates (c c' : Course account) : Prop := c'.outside.clock = c.outside.clock ∨ Dated c.outside

/-- The turns end alike and leave the same rows, up to their ids and the times they were
written at. -/
structure SameResult (bundled : Bundled) (w : World) (ρ : Uuid → Uuid) (c c' : Course account) : Prop where
  outcome : c'.outcome bundled w = c.outcome bundled w
  rows : (c'.final bundled w).db.seen account.id id = (c.final bundled w).db.seen account.id ρ

theorem spared_turn (bundled : Bundled) (h : w.db.Keyed) (c : Course account) :
    Spared account.id w (syncInTurn bundled c.before w) :=
  Spared.syncInTurn ⟨h, rfl, rfl, rfl, rfl⟩ fun turn hturn => c.others turn (List.mem_append_left _ hturn)

theorem tokenGood_turn (h : w.db.Keyed) (c : Course account) :
    TokenGood account.id (c.turn bundled w) ↔ TokenGood account.id { w with outside := c.outside } := by
  rw [TokenGood, turn, (c.spared_turn bundled h).token]
  rfl

theorem seen_eq {w' : World} (h : Spared account.id w w') : w'.db.seen account.id ρ = w.db.seen account.id ρ :=
  congrArg (Db.renamed ρ) h.rows

theorem seen_final (h : w.db.Keyed) (c : Course account) :
    (c.final bundled w).db.seen account.id ρ =
      (syncOneAccount bundled account (c.turn bundled w)).2.db.seen account.id ρ := by
  have hisolated : Isolated account.id (c.turn bundled w) (syncOneAccount bundled account (c.turn bundled w)).2 :=
    syncOneAccount_isolates bundled (c.spared_turn bundled h).keyed
  exact seen_eq (Spared.syncInTurn ⟨hisolated.keyed, rfl, rfl, rfl, rfl⟩
    fun turn hturn => c.others turn (List.mem_append_right _ hturn))

def trial (bundled : Bundled) (w : World) (c c' : Course account) (ρ : Uuid → Uuid)
    (h : SameAnswers bundled w ρ c c') : Trial where
  account := account.id
  start := c.turn bundled w
  start' := c'.turn bundled w
  rename := ρ
  injective := h.injective
  rename_noUuid := h.noUuid
  sameClock := c'.outside.clock = c.outside.clock

theorem twins_turn (hkeyed : w.db.Keyed) {c c' : Course account} (h : SameAnswers bundled w ρ c c')
    (hdates : SameDates c c') :
    (trial bundled w c c' ρ h).Twins (c.turn bundled w) (c'.turn bundled w) := by
  have hspared := c.spared_turn bundled hkeyed
  have hspared' := c'.spared_turn bundled hkeyed
  exact {
    isolated := isolated_refl hspared.keyed
    isolated' := isolated_refl hspared'.keyed
    seen := (seen_eq hspared').trans (h.kept.trans (seen_eq hspared).symm)
    secret := hspared'.secret.trans hspared.secret.symm
    clientSecret := hspared'.clientSecret.trans hspared.clientSecret.symm
    token := congrArg (Option.map fun entry => entry.2.1) (hspared'.token.trans hspared.token.symm)
    answers := h.answers
    uuids := h.uuids
    unused := h.unused
    unused' := h.unused'
    ties := h.ties
    clock := id
    dated := fun hclock => hdates.resolve_left hclock }

theorem sameResult (hkeyed : w.db.Keyed) {c c' : Course account} (h : SameAnswers bundled w ρ c c')
    (htoken : SameToken w c c') (hdates : SameDates c c') : SameResult bundled w ρ c c' := by
  have hgood : TokenGood account.id (c.turn bundled w) ↔ TokenGood account.id (c'.turn bundled w) :=
    (c.tokenGood_turn hkeyed).trans (htoken.trans (c'.tokenGood_turn hkeyed).symm)
  obtain ⟨houtcome, hafter⟩ := syncOneAccount_twins bundled rfl (twins_turn hkeyed h hdates) hgood
  constructor
  · exact houtcome.eq.symm
  · rw [c'.seen_final hkeyed, c.seen_final hkeyed]
    exact hafter.seen

end Course

end Course

/-- A pass touches nothing of another account, and before the trash is purged `syncAll` is a loop of
such passes, in which each account ends the same whenever its turn comes and however the others
end. -/
theorem syncAll_isolates_accounts (bundled : Bundled) :
    (∀ (w : World) (account : LinkedAccount) (other : Uuid), w.db.WellFormed → other ≠ account.id →
      (syncOneAccount bundled account w).2.db.rowsOfOne other = w.db.rowsOfOne other) ∧
    (∀ (w w₁ : World) (accounts : List LinkedAccount), w.db.WellFormed →
      listAccounts w = (.ok accounts, w₁) → ∃ turns, turns.map Prod.fst = accounts ∧
        syncAll bundled w = purgeTrash (syncInTurn bundled turns w₁) ∧
        ∀ account ∈ accounts, ∃ c : Course account, syncInTurn bundled turns w₁ = c.final bundled w₁) ∧
    ∀ (w : World) (account : LinkedAccount) (ρ : Uuid → Uuid) (c c' : Course account), w.db.WellFormed →
      c.SameAnswers bundled w ρ c' → c.SameToken w c' → c.SameDates c' → c.SameResult bundled w ρ c' := by
  refine ⟨?_, ?_, ?_⟩
  · intro w account other hwell hother
    exact (syncOneAccount_isolates bundled hwell.keyed).rowsOf_eq hother
  · intro w w₁ accounts hwell hlist
    obtain ⟨turns, haccounts, hloop⟩ := syncAll_inTurn bundled hlist
    refine ⟨turns, haccounts, hloop, ?_⟩
    intro account haccount
    apply Course.exists_course
    · have hids := listAccounts_ids hwell hlist
      rwa [← haccounts, List.map_map] at hids
    · rwa [haccounts]
  · intro w account ρ c c' hwell hanswers htoken hdates
    exact Course.sameResult hwell.keyed hanswers htoken hdates

section Example

def inboxOf (digit : Char) : LinkedAccount where
  id := .ending digit
  provider := .imap
  emailAddress := "box" ++ digit.toString ++ "@example.org"
  displayName := none
  syncCursor := none
  lastSyncedAt := none
  lastSyncError := none
  createdAt := 0
  imapHost := some "imap.example.org"
  imapPort := none

def twoMessages (date : Option Int) : ImapSession where
  connect := .connected
  select := .ok (some 7)
  search _ := .ok ⟨[1, 2], by decide⟩
  fetch _ := .ok [⟨some 1, false, some ⟨none, none, date⟩, none⟩, ⟨some 2, false, some ⟨none, none, some 1500⟩, none⟩]
  fullMessage _ := .ok ⟨none, none⟩

def twoInboxes : World where
  db := { Db.empty with
    linkedAccounts := [inboxOf '1', inboxOf '2']
    settings := [(SettingKeys.inboxCapacity, "1")] }
  keyring _ := none
  tokenCache := [(.ending '1', "password", 100)]
  journal := []
  outside := {}

def answering (date : Option Int) (clock instants : List Int) : Outside where
  clock := clock
  instants := instants
  keyringGetFaults := [some "locked"]
  uuids := [.ending '3', .ending '4']
  imap := [twoMessages date, twoMessages date]

def loopBundle : Bundled := ⟨none, none, none⟩

theorem other_inbox : (inboxOf '2').id ≠ (inboxOf '1').id := by decide

def firstInTurn (o : Outside) : Course (inboxOf '1') where
  before := []
  outside := o
  after := [(inboxOf '2', {})]
  others turn hturn := by
    cases List.mem_singleton.mp hturn
    exact other_inbox

def lastInTurn (o : Outside) : Course (inboxOf '1') where
  before := [(inboxOf '2', {})]
  outside := o
  after := []
  others turn hturn := by
    cases List.mem_singleton.mp hturn
    exact other_inbox

theorem unused_of_empty {account : Uuid} {w : World} {uuids : List Uuid} (hemails : w.db.emails = [])
    (hclassifications : w.db.classifications = []) : Unused account w uuids := by
  intro id _
  constructor
  · intro e he
    simp [Db.rowsOf, hemails] at he
  · intro c hc
    simp [Db.rowsOf, hclassifications] at hc

theorem sameAnswers_example (date : Option Int) (clock instants clock' instants' : List Int) :
    (firstInTurn (answering date clock instants)).SameAnswers loopBundle twoInboxes id
      (lastInTurn (answering date clock' instants')) where
  injective := Function.injective_id
  noUuid := rfl
  kept := rfl
  answers := rfl
  uuids := rfl
  unused := unused_of_empty rfl rfl
  unused' := unused_of_empty rfl rfl
  ties l := by simp [answering, firstInTurn, lastInTurn]

theorem twoInboxes_wellFormed : twoInboxes.db.WellFormed where
  accountsPk := by decide +kernel
  accountsUnique := by decide +kernel
  criteriaPk := List.nodup_nil
  emailsPk := List.nodup_nil
  emailsUnique := List.nodup_nil
  emailsFk _ he := by cases he
  classificationsPk := List.nodup_nil
  classificationsUnique := List.nodup_nil
  classificationsEmailFk _ hc := by cases hc
  classificationsCriterionFk _ hc := by cases hc
  settingsPk := by decide +kernel

def keptOf (c : Course (inboxOf '1')) : List String :=
  ((c.final loopBundle twoInboxes).db.seen (inboxOf '1').id id).emails.map EmailRow.providerMessageId

theorem undated_first : keptOf (firstInTurn (answering none [] [])) = ["2"] := by decide +kernel

theorem undated_last : keptOf (lastInTurn (answering none [2000] [])) = ["1"] := by decide +kernel

theorem expired_first : ((firstInTurn (answering none [] [])).outcome loopBundle twoInboxes).isOk := by
  decide +kernel

theorem expired_last : ¬((lastInTurn (answering none [] [200])).outcome loopBundle twoInboxes).isOk := by
  decide +kernel

theorem turns_depend_on_time :
    (¬∀ (w : World) (account : LinkedAccount) (ρ : Uuid → Uuid) (c c' : Course account), w.db.WellFormed →
      c.SameAnswers loopBundle w ρ c' → c.SameToken w c' → c.SameResult loopBundle w ρ c') ∧
    ¬∀ (w : World) (account : LinkedAccount) (ρ : Uuid → Uuid) (c c' : Course account), w.db.WellFormed →
      c.SameAnswers loopBundle w ρ c' → c.SameDates c' → c.SameResult loopBundle w ρ c' := by
  constructor
  · intro h
    have hrows := (h twoInboxes (inboxOf '1') id _ _ twoInboxes_wellFormed
      (sameAnswers_example none [] [] [2000] []) Iff.rfl).rows
    have hkept : keptOf (lastInTurn (answering none [2000] [])) = keptOf (firstInTurn (answering none [] [])) :=
      congrArg (fun db => db.emails.map EmailRow.providerMessageId) hrows
    rw [undated_first, undated_last] at hkept
    revert hkept
    decide
  · intro h
    have houtcome := (h twoInboxes (inboxOf '1') id _ _ twoInboxes_wellFormed
      (sameAnswers_example none [] [] [] [200]) (.inl rfl)).outcome
    have hlast := expired_last
    rw [houtcome] at hlast
    exact hlast expired_first

theorem dated_example (clock instants : List Int) : Dated (answering (some 1000) clock instants) where
  gmail _ hm := by cases hm
  outlook _ hm := by cases hm
  imap session hsession ids fetches hfetch := by
    have hsame : session = twoMessages (some 1000) := by simpa [answering] using hsession
    rw [hsame] at hfetch
    cases hfetch
    simp

theorem tokenGood_example {o : Outside} (h : o.instants.headD 0 < 100) :
    TokenGood (inboxOf '1').id { twoInboxes with outside := o } :=
  ⟨(.ending '1', "password", 100), rfl, h⟩

theorem syncAll_isolates_accounts_example :
    (syncOneAccount loopBundle (inboxOf '1') { twoInboxes with outside := answering none [] [] }).2.db.rowsOfOne
        (inboxOf '2').id = twoInboxes.db.rowsOfOne (inboxOf '2').id ∧
      (∃ turns, turns.map Prod.fst = [inboxOf '1', inboxOf '2'] ∧
        syncAll loopBundle twoInboxes = purgeTrash (syncInTurn loopBundle turns twoInboxes.afterDbCall)) ∧
      (firstInTurn (answering (some 1000) [] [])).SameResult loopBundle twoInboxes id
        (lastInTurn (answering (some 1000) [2000] [50])) := by
  obtain ⟨hframe, hloop, hsame⟩ := syncAll_isolates_accounts loopBundle
  refine ⟨hframe _ _ _ twoInboxes_wellFormed other_inbox, ?_, ?_⟩
  · obtain ⟨turns, haccounts, hrun, _⟩ := hloop twoInboxes _ _ twoInboxes_wellFormed rfl
    exact ⟨turns, haccounts, hrun⟩
  · apply hsame _ _ _ _ _ twoInboxes_wellFormed (sameAnswers_example _ _ _ _ _)
    · exact iff_of_true (tokenGood_example (by decide)) (tokenGood_example (by decide))
    · exact .inr (dated_example _ _)

end Example

end Fumiko.EmailCore
