import Fumiko.EmailCore.TwinLaws
import Mathlib.Logic.Function.Basic
import Mathlib.Logic.Relation

namespace Fumiko.EmailCore

open Fumiko.Common Fumiko.Foundation Fumiko.Foundation.Action Fumiko.Net Fumiko.OAuth Fumiko.Program
  Fumiko.Storage

def minting (w : World) : List Int × List (Except String TokenResponse) × List (Uuid × String × Int) :=
  (w.outside.instants, w.outside.tokens, w.tokenCache)

def nextLifetime (account : LinkedAccount) (w : World) : Option Nat :=
  if account.provider = .imap ∨ account.imapHost.isSome then none
  else match w.outside.tokens.headD (.error "connection closed") with
    | .ok response => response.expiresIn
    | .error _ => none

section Minting

variable {bundled : Bundled} {account : LinkedAccount} {w w' : World} {tokens : TokenSet}

theorem safeExpiresIn_le (expiresIn : Option Nat) : (safeExpiresIn expiresIn : Int) ≤ accessTokenTtl := by
  have hle : safeExpiresIn expiresIn ≤ 50 * 60 := Nat.min_le_right _ _
  rw [accessTokenTtl]
  omega

theorem ttl_le_safeExpiresIn_iff (expiresIn : Option Nat) :
    accessTokenTtl ≤ (safeExpiresIn expiresIn : Int) ↔ 3600 ≤ expiresIn.getD 3600 := by
  rw [safeExpiresIn, accessTokenTtl]
  omega

theorem minting_afterDbCall (w : World) : Keeps minting w w.afterDbCall := rfl

theorem minting_afterKeyringGet (w : World) : Keeps minting w w.afterKeyringGet := rfl

structure Minted (account : LinkedAccount) (w : World) (tokens : TokenSet) (w' : World) : Prop where
  expiresAt : tokens.expiresAt = w.outside.instants.headD 0 + safeExpiresIn (nextLifetime account w)
  instants : w'.outside.instants = w.outside.instants.tail
  tokenCache : w'.tokenCache = w.tokenCache

theorem requestTokens_minted {refreshToken : String}
    (hoauth : ¬(account.provider = .imap ∨ account.imapHost.isSome))
    (h : requestTokens bundled account refreshToken w = (.ok tokens, w')) :
    Minted account w tokens w' := by
  obtain ⟨credentials, w₁, hload, h⟩ := bind_eq_ok.mp h
  obtain ⟨client, w₂, hbuild, h⟩ := bind_eq_ok.mp h
  have hloaded : Keeps minting w w₁ := by
    apply Moves.of_eq (moves_mapError ?_) hload
    split <;> exact moves_loadCredentials minting_afterDbCall minting_afterKeyringGet _ _ _
  have hbuilt : Keeps minting w₁ w₂ :=
    Moves.of_eq (moves_mapError (moves_buildOAuthClient credentials 0)) hbuild
  have hkept : minting w₂ = minting w := hbuilt.trans hloaded
  simp only [minting, Prod.mk.injEq] at hkept
  obtain ⟨hinstants, htokens, hcache⟩ := hkept
  obtain ⟨answer, w₃, hanswer, h⟩ := bind_eq_ok.mp h
  have hhead : w₂.outside.tokens.headD (.error "connection closed") = answer :=
    Except.ok.inj (congrArg Prod.fst hanswer)
  have hw₃ := congrArg Prod.snd hanswer
  rw [htokens] at hhead
  cases answer with
  | error text => cases h
  | ok response =>
    cases h
    cases hw₃
    refine ⟨?_, congrArg List.tail hinstants, hcache⟩
    rw [nextLifetime, if_neg hoauth, hhead, ← hinstants]

theorem getAccessTokenForAccount_minted
    (h : getAccessTokenForAccount bundled account w = (.ok tokens, w')) : Minted account w tokens w' := by
  have hsecrets : Moves (Keeps minting) (accountSecret account.id) :=
    moves_accountSecret minting_afterKeyringGet account.id
  rw [getAccessTokenForAccount] at h
  split at h
  · next himap =>
    obtain ⟨password, w₁, hsecret, h⟩ := bind_eq_ok.mp h
    have hkept : minting w₁ = minting w := hsecrets.of_eq hsecret
    simp only [minting, Prod.mk.injEq] at hkept
    cases h
    refine ⟨?_, congrArg List.tail hkept.1, hkept.2.2⟩
    rw [nextLifetime, if_pos himap, ← hkept.1]
    rfl
  · next hoauth =>
    obtain ⟨refreshToken, w₁, hsecret, h⟩ := bind_eq_ok.mp h
    have hkept : minting w₁ = minting w := hsecrets.of_eq hsecret
    simp only [minting, Prod.mk.injEq] at hkept
    obtain ⟨tokens', w₂, hrequest, h⟩ := bind_eq_ok.mp h
    obtain ⟨hexpires, hinstants, hcache⟩ := requestTokens_minted hoauth hrequest
    obtain ⟨u, w₃, hpersist, h⟩ := bind_eq_ok.mp h
    cases h
    have hrotated : Moves (Keeps minting) (persistRotation account.id refreshToken tokens) := by
      rw [persistRotation]
      split
      · split
        · exact moves_mapError (moves_setSecret (fun _ => rfl) fun _ => rfl)
        · exact moves_pure _
      · exact moves_pure _
    have hpersisted : minting w' = minting w₂ := hrotated.of_eq hpersist
    simp only [minting, Prod.mk.injEq] at hpersisted
    have hlifetime : nextLifetime account w₁ = nextLifetime account w := by
      rw [nextLifetime, hkept.2.1, nextLifetime]
    rw [hkept.1, hlifetime] at hexpires
    rw [hkept.1] at hinstants
    exact ⟨hexpires, hpersisted.1.trans hinstants, (hpersisted.2.2.trans hcache).trans hkept.2.2⟩

end Minting

section Cache

def reading (w : World) : Int := w.outside.instants.headD 0

def secondReading (w : World) : Int := w.outside.instants.tail.headD 0

def clockAt (t : Int) (w : World) : World := { w with outside := { w.outside with instants := [t] } }

/-- A cache miss, and the token set that is got for it from `w₁` on. -/
structure Refresh (bundled : Bundled) (account : LinkedAccount) (tokens : TokenSet)
    (w w₁ w₂ w' : World) : Prop where
  miss : cachedToken account.id w = (.ok none, w₁)
  got : getAccessTokenForAccount bundled account w₁ = (.ok tokens, w₂)
  returned : accessTokenFor bundled account w = (.ok tokens.accessToken, w')

/-- The credential lives for an hour or more, and the clock does not move between the two readings
of the refresh. -/
def InTime (account : LinkedAccount) (w₁ : World) : Prop :=
  3600 ≤ (nextLifetime account w₁).getD 3600 ∧ secondReading w₁ ≤ reading w₁

variable {bundled : Bundled} {account : LinkedAccount} {w w₁ w₂ w' : World} {tokens : TokenSet}
  {token : String}

theorem cachedToken_eq_ok {r : Option String} (h : cachedToken account.id w = (.ok r, w')) :
    w'.tokenCache = w.tokenCache ∧ ∀ token, r = some token → ∃ entry,
      w.tokenCache.find? (·.1 = account.id) = some entry ∧ entry.2.1 = token ∧ reading w < entry.2.2 := by
  cases hfind : w.tokenCache.find? (·.1 = account.id) with
  | none =>
    rw [cachedToken_none hfind] at h
    cases h
    exact ⟨rfl, nofun⟩
  | some entry =>
    rw [cachedToken_some hfind] at h
    cases h
    refine ⟨rfl, ?_⟩
    intro token htoken
    split at htoken
    · next hgood =>
      cases htoken
      exact ⟨entry, rfl, rfl, hgood⟩
    · cases htoken

theorem Refresh.stored (h : Refresh bundled account tokens w w₁ w₂ w') :
    w'.tokenCache = (account.id, tokens.accessToken, secondReading w₁ + accessTokenTtl) ::
      w.tokenCache.filter (·.1 ≠ account.id) := by
  have hminted := getAccessTokenForAccount_minted h.got
  have hreturned := h.returned
  obtain ⟨r, w₁', hcached, hreturned⟩ := bind_eq_ok.mp hreturned
  cases h.miss.symm.trans hcached
  obtain ⟨tokens', w₂', hgot, hreturned⟩ := bind_eq_ok.mp hreturned
  rw [mapError_eq_ok] at hgot
  cases h.got.symm.trans hgot
  have hinstants : w₂.outside.instants.headD 0 = secondReading w₁ :=
    congrArg (List.headD · 0) hminted.instants
  cases hreturned
  change (account.id, _, w₂.outside.instants.headD 0 + _) :: w₂.tokenCache.filter _ = _
  rw [hinstants, hminted.tokenCache, (cachedToken_eq_ok h.miss).1]

theorem Refresh.deadline (h : Refresh bundled account tokens w w₁ w₂ w') :
    tokens.expiresAt = reading w₁ + safeExpiresIn (nextLifetime account w₁) :=
  (getAccessTokenForAccount_minted h.got).expiresAt

theorem Refresh.inTime_iff (h : Refresh bundled account tokens w w₁ w₂ w')
    (hclock : reading w₁ ≤ secondReading w₁) :
    secondReading w₁ + accessTokenTtl ≤ tokens.expiresAt ↔ InTime account w₁ := by
  have hle := safeExpiresIn_le (nextLifetime account w₁)
  rw [h.deadline, InTime, ← ttl_le_safeExpiresIn_iff]
  omega

theorem Refresh.stored_le (h : Refresh bundled account tokens w w₁ w₂ w') (hin : InTime account w₁) :
    secondReading w₁ + accessTokenTtl ≤ tokens.expiresAt := by
  have hlifetime := (ttl_le_safeExpiresIn_iff _).mpr hin.1
  have hreading := hin.2
  rw [h.deadline]
  omega

theorem Refresh.reuse_iff (h : Refresh bundled account tokens w w₁ w₂ w')
    (hclock : reading w₁ ≤ secondReading w₁) :
    (∀ t token w'', secondReading w₁ ≤ t →
      cachedToken account.id (clockAt t w') = (.ok (some token), w'') → t < tokens.expiresAt) ↔
    InTime account w₁ := by
  have hfind : (w'.tokenCache).find? (·.1 = account.id) =
      some (account.id, tokens.accessToken, secondReading w₁ + accessTokenTtl) := by
    rw [h.stored]
    simp
  rw [← h.inTime_iff hclock]
  constructor
  · intro hreuse
    by_contra hlate
    -- The last second of the cache entry comes after the deadline.
    have ht : secondReading w₁ + accessTokenTtl - 1 < secondReading w₁ + accessTokenTtl := by omega
    have hfind' : (clockAt (secondReading w₁ + accessTokenTtl - 1) w').tokenCache.find?
      (·.1 = account.id) = _ := hfind
    have hcached := cachedToken_some hfind'
    rw [show (clockAt (secondReading w₁ + accessTokenTtl - 1) w').outside.instants.headD 0 =
      secondReading w₁ + accessTokenTtl - 1 from rfl, if_pos ht] at hcached
    have hbefore := hreuse _ _ _ (by rw [accessTokenTtl]; omega) hcached
    omega
  · intro hle t token w'' _ hcached
    obtain ⟨entry, hentry, -, hgood⟩ := (cachedToken_eq_ok hcached).2 token rfl
    have hentry' : w'.tokenCache.find? (·.1 = account.id) = some entry := hentry
    rw [hfind] at hentry'
    cases hentry'
    exact lt_of_lt_of_le hgood hle

end Cache

section Runs

variable {bundled : Bundled} {account : LinkedAccount} {w w₁ w₂ w' : World} {tokens : TokenSet}

/-- A step of the cache, with the token set of the last refresh of each account.  Refreshes are
made only where they are allowed. -/
inductive CacheStep (bundled : Bundled) (Allowed : LinkedAccount → World → Prop) :
    World × (Uuid → Option TokenSet) → World × (Uuid → Option TokenSet) → Prop
  | reused {account : LinkedAccount} {token w after sets} (h : cachedToken account.id w = (.ok (some token), after)) :
    CacheStep bundled Allowed (w, sets) (after, sets)
  | refreshed {account tokens w w₁ w₂ after sets} (h : Refresh bundled account tokens w w₁ w₂ after)
    (hallowed : Allowed account w₁) : CacheStep bundled Allowed (w, sets)
      (after, Function.update sets account.id (some tokens))
  | failed {account e w after sets} (h : accessTokenFor bundled account w = (.error e, after)) :
    CacheStep bundled Allowed (w, sets) (after, sets)
  | evicted (account : Uuid) (w sets) :
    CacheStep bundled Allowed (w, sets) ((invalidateToken account w).2, sets)
  | elsewhere {w after sets} (h : after.tokenCache = w.tokenCache) :
    CacheStep bundled Allowed (w, sets) (after, sets)

def EndsInTime (s : World × (Uuid → Option TokenSet)) : Prop :=
  ∀ id entry, s.1.tokenCache.find? (·.1 = id) = some entry →
    ∃ tokens, s.2 id = some tokens ∧ tokens.accessToken = entry.2.1 ∧ entry.2.2 ≤ tokens.expiresAt

theorem EndsInTime.congr {sets : Uuid → Option TokenSet} (hs : EndsInTime (w, sets))
    (h : w'.tokenCache = w.tokenCache) : EndsInTime (w', sets) := by
  intro id entry hentry
  rw [h] at hentry
  exact hs id entry hentry

theorem tokenCache_getAccessTokenForAccount :
    Moves (Keeps World.tokenCache) (getAccessTokenForAccount bundled account) := by
  have hdb (w : World) : Keeps World.tokenCache w w.afterDbCall := rfl
  have hget (w : World) : Keeps World.tokenCache w w.afterKeyringGet := rfl
  have hinstant : Moves (Keeps World.tokenCache) (instantNow : Program TokenError Int) :=
    moves_step fun _ => rfl
  rw [getAccessTokenForAccount]
  split
  · exact moves_bind (moves_accountSecret hget _) fun _ => moves_bind hinstant fun _ => moves_pure _
  · apply moves_bind (moves_accountSecret hget _)
    intro refreshToken
    apply moves_bind (moves_requestTokens hdb hget (moves_step fun _ => rfl) hinstant _ _ _)
    intro tokens
    apply moves_bind ?_ fun _ => moves_pure _
    rw [persistRotation]
    split
    · split
      · exact moves_mapError (moves_setSecret (fun _ => rfl) fun _ => rfl)
      · exact moves_pure _
    · exact moves_pure _

theorem accessTokenFor_eq_error {e : SyncError} (h : accessTokenFor bundled account w = (.error e, w')) :
    w'.tokenCache = w.tokenCache := by
  obtain hcached | ⟨r, w₁, hcached, h⟩ := bind_eq_error.mp h
  · cases hfind : w.tokenCache.find? (·.1 = account.id) with
    | none =>
      rw [cachedToken_none hfind] at hcached
      cases hcached
    | some entry =>
      rw [cachedToken_some hfind] at hcached
      cases hcached
  · have hcache := (cachedToken_eq_ok hcached).1
    cases r with
    | some token => cases h
    | none =>
      obtain hget | ⟨tokens, w₂, -, h⟩ := bind_eq_error.mp h
      · exact ((moves_mapError tokenCache_getAccessTokenForAccount).of_eq hget).trans hcache
      · cases h

theorem EndsInTime.step {s t : World × (Uuid → Option TokenSet)} (hs : EndsInTime s)
    (h : CacheStep bundled InTime s t) : EndsInTime t := by
  cases h with
  | reused h => exact hs.congr (cachedToken_eq_ok h).1
  | @refreshed account tokens w w₁ w₂ after sets h hallowed =>
    intro id entry hentry
    dsimp only at hentry ⊢
    rw [h.stored] at hentry
    by_cases hid : id = account.id
    · subst hid
      rw [List.find?_cons_of_pos (by simp)] at hentry
      cases hentry
      exact ⟨tokens, Function.update_self _ _ _, rfl, h.stored_le hallowed⟩
    · rw [List.find?_cons_of_neg (by simpa using Ne.symm hid), find_filter_ne hid] at hentry
      rw [Function.update_of_ne hid]
      exact hs id entry hentry
  | failed h => exact hs.congr (accessTokenFor_eq_error h)
  | evicted id w sets =>
    intro other entry hentry
    have hfind : (w.tokenCache.filter (·.1 ≠ id)).find? (·.1 = other) = some entry := hentry
    by_cases hother : other = id
    · subst hother
      rw [find_filter_self] at hfind
      cases hfind
    · rw [find_filter_ne hother] at hfind
      exact hs other entry hfind
  | elsewhere h => exact hs.congr h

theorem EndsInTime.run {s t : World × (Uuid → Option TokenSet)} (hs : EndsInTime s)
    (h : Relation.ReflTransGen (CacheStep bundled InTime) s t) : EndsInTime t := by
  induction h with
  | refl => exact hs
  | tail _ hstep ih => exact ih.step hstep

/-- A refreshed token is reused before its deadline only, exactly if it lives for an hour and is
stored at once; and as long as all refreshes are such, so is every reuse. -/
theorem cachedToken_deadline_iff (bundled : Bundled) :
    (∀ (account : LinkedAccount) (tokens : TokenSet) (w w₁ w₂ w' : World),
      Refresh bundled account tokens w w₁ w₂ w' → reading w₁ ≤ secondReading w₁ →
      ((∀ t token w'', secondReading w₁ ≤ t →
        cachedToken account.id (clockAt t w') = (.ok (some token), w'') → t < tokens.expiresAt) ↔
        InTime account w₁)) ∧
    ∀ (start : World) (s : World × (Uuid → Option TokenSet)), start.tokenCache = [] →
      Relation.ReflTransGen (CacheStep bundled InTime) (start, fun _ => none) s →
      ∀ (account : LinkedAccount) (token : String) (w' : World),
        cachedToken account.id s.1 = (.ok (some token), w') →
        ∃ tokens, s.2 account.id = some tokens ∧ tokens.accessToken = token ∧
          reading s.1 < tokens.expiresAt := by
  constructor
  · intro account tokens w w₁ w₂ w' h hclock
    exact h.reuse_iff hclock
  · intro start s hempty hrun account token w' hcached
    have hstart : EndsInTime (start, fun _ => none) := by
      intro id entry hentry
      rw [hempty] at hentry
      cases hentry
    obtain ⟨entry, hentry, htoken, hgood⟩ := (cachedToken_eq_ok hcached).2 token rfl
    obtain ⟨tokens, htokens, haccess, hle⟩ := hstart.run hrun account.id entry hentry
    exact ⟨tokens, htokens, haccess.trans htoken, lt_of_lt_of_le hgood hle⟩

end Runs

section Example

def oauthAccount : LinkedAccount where
  id := .ending '1'
  provider := .gmail
  emailAddress := "me@gmail.com"
  displayName := none
  syncCursor := none
  lastSyncedAt := none
  lastSyncError := none
  createdAt := 0
  imapHost := none
  imapPort := none

def bundledClient : Bundled := ⟨some "id", some "secret", none⟩

def refreshWorld (expiresIn : Option Nat) : World where
  db := { Db.empty with linkedAccounts := [oauthAccount] }
  keyring key := if key = (Uuid.ending '1').text then some "refresh" else none
  tokenCache := []
  journal := []
  outside := {
    instants := [0, 0, 1000]
    parseUrl := fun _ => .ok ⟨"/", []⟩
    tokens := [.ok ⟨"access", none, expiresIn⟩] }

def refreshedWorld (expiresIn : Option Nat) : World :=
  (accessTokenFor bundledClient oauthAccount (refreshWorld expiresIn)).2

def exampleTokens (expiresIn : Option Nat) : TokenSet :=
  ⟨"access", some "refresh", safeExpiresIn expiresIn⟩

theorem refreshWorld_refresh (expiresIn : Option Nat) :
    Refresh bundledClient oauthAccount (exampleTokens expiresIn) (refreshWorld expiresIn)
      (refreshWorld expiresIn)
      (getAccessTokenForAccount bundledClient oauthAccount (refreshWorld expiresIn)).2
      (refreshedWorld expiresIn) where
  miss := rfl
  got := by
    have hrun : (getAccessTokenForAccount bundledClient oauthAccount (refreshWorld expiresIn)).1 =
        .ok ⟨"access", some "refresh", 0 + safeExpiresIn expiresIn⟩ := rfl
    rw [Int.zero_add] at hrun
    exact Prod.ext hrun rfl
  returned := rfl

theorem cachedToken_outlives_deadline :
    (exampleTokens (some 600)).expiresAt = 60 ∧ reading (refreshedWorld (some 600)) = 1000 ∧
      ∃ w', cachedToken oauthAccount.id (refreshedWorld (some 600)) = (.ok (some "access"), w') :=
  ⟨rfl, rfl, _, rfl⟩

theorem cachedToken_deadline_iff_example :
    (∀ t token w'', 0 ≤ t → cachedToken oauthAccount.id (clockAt t (refreshedWorld none)) =
      (.ok (some token), w'') → t < (exampleTokens none).expiresAt) ∧
    reading (refreshedWorld none) < (exampleTokens none).expiresAt := by
  have hin : InTime oauthAccount (refreshWorld none) := ⟨le_refl 3600, le_refl 0⟩
  constructor
  · exact ((cachedToken_deadline_iff bundledClient).1 _ _ _ _ _ _ (refreshWorld_refresh none)
      (le_refl 0)).mpr hin
  · obtain ⟨tokens, htokens, -, hbefore⟩ := (cachedToken_deadline_iff bundledClient).2
      (refreshWorld none) _ rfl (.single (.refreshed (refreshWorld_refresh none) hin)) oauthAccount
      "access" _ rfl
    have hset : some (exampleTokens none) = some tokens :=
      (Function.update_self oauthAccount.id (some (exampleTokens none)) fun _ => none).symm.trans htokens
    cases hset
    exact hbefore

end Example

end Fumiko.EmailCore
