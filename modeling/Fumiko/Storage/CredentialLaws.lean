import Fumiko.Storage.SchemaLaws
import Fumiko.Storage.ServiceLaws
import Mathlib.Logic.Relation

namespace Fumiko.Storage

open Fumiko.Common Fumiko.Foundation Fumiko.Foundation.Action Fumiko.Program

def undisturbed (w : World) : World := { w with outside := {} }

def storedId (w : World) : Option String := w.db.getSetting SettingKeys.userGoogleClientId

def storedSecret (w : World) : Option String := w.keyring KeyringKeys.userGoogleClientSecret

def storedPair (w : World) : Option (String × String) :=
  (storedId w).bind fun clientId => (storedSecret w).map fun clientSecret => (clientId, clientSecret)

section Reading

variable {w w' : World}

theorem storedPair_congr (hid : storedId w' = storedId w) (hsecret : storedSecret w' = storedSecret w) :
    storedPair w' = storedPair w := by
  rw [storedPair, hid, hsecret, storedPair]

theorem storedPair_of_noSecret (h : storedSecret w = none) : storedPair w = none := by
  rw [storedPair, h]
  cases storedId w <;> rfl

theorem storedPair_of_noId (h : storedId w = none) : storedPair w = none := by
  rw [storedPair, h]
  rfl

theorem storedPair_of_id {clientId : String} (h : storedId w = some clientId) :
    storedPair w = (storedSecret w).map fun clientSecret => (clientId, clientSecret) := by
  rw [storedPair, h]
  rfl

theorem getUserGoogleCredentials_eq_ok {r : Option (String × String)}
    (h : getUserGoogleCredentials w = (.ok r, w')) : r = storedPair w := by
  obtain ⟨clientId, w₁, hid, h⟩ := bind_eq_ok.mp h
  rw [getSetting, query_run] at hid
  split at hid
  · cases hid
  · cases hid
    cases hstored : storedId w with
    | none =>
      have hnone : w.db.getSetting SettingKeys.userGoogleClientId = none := hstored
      rw [hnone] at h
      cases h
      exact (storedPair_of_noId hstored).symm
    | some clientId =>
      have hsome : w.db.getSetting SettingKeys.userGoogleClientId = some clientId := hstored
      rw [hsome] at h
      obtain ⟨clientSecret, w₂, hsecret, h⟩ := bind_eq_ok.mp h
      rw [getSecret_run] at hsecret
      split at hsecret
      · cases hsecret
      · cases hsecret
        have hpair : storedPair w = (w.afterDbCall.keyring KeyringKeys.userGoogleClientSecret).map
            fun clientSecret => (clientId, clientSecret) := storedPair_of_id hstored
        rw [hpair]
        cases hkeyring : w.afterDbCall.keyring KeyringKeys.userGoogleClientSecret with
        | none =>
          rw [hkeyring] at h
          cases h
          rfl
        | some clientSecret =>
          rw [hkeyring] at h
          cases h
          rfl

theorem getUserGoogleCredentials_undisturbed (w : World) :
    (getUserGoogleCredentials (undisturbed w)).1 = .ok (storedPair w) := by
  have hid : getSetting SettingKeys.userGoogleClientId (undisturbed w) =
      (.ok (storedId w), (undisturbed w).afterDbCall) := rfl
  have hsecret : getSecret KeyringKeys.userGoogleClientSecret (undisturbed w).afterDbCall =
      (.ok (storedSecret w), (undisturbed w).afterDbCall.afterKeyringGet) := rfl
  rw [getUserGoogleCredentials, bind_run, hid, storedPair]
  cases storedId w with
  | none => rfl
  | some clientId =>
    dsimp only
    rw [bind_run, hsecret]
    cases storedSecret w <;> rfl

end Reading

section Saving

variable {w w' : World} {clientId clientSecret : String} {r : Except StorageError Unit}

inductive Saving (clientId clientSecret : String) (w : World) : Except StorageError Unit → World → Prop
  | saved {after} (hid : storedId after = some clientId)
    (hsecret : storedSecret after = some clientSecret) : Saving clientId clientSecret w (.ok ()) after
  | refused {e after} (hset : w.keyringSetFault ≠ none) (hid : storedId after = storedId w)
    (hsecret : storedSecret after = storedSecret w) : Saving clientId clientSecret w (.error e) after
  | erased {e after} (hset : w.keyringSetFault = none) (hdelete : w.keyringDeleteFault = none)
    (hid : storedId after = storedId w) (hsecret : storedSecret after = none) :
    Saving clientId clientSecret w (.error e) after
  | stuck {e after} (hset : w.keyringSetFault = none) (hdelete : w.keyringDeleteFault ≠ none)
    (hid : storedId after = storedId w) (hsecret : storedSecret after = some clientSecret) :
    Saving clientId clientSecret w (.error e) after

theorem getSetting_setSetting (db : Db) (key value : String) :
    (db.setSetting key value).getSetting key = some value := by
  rw [Db.setSetting]
  split
  · next hany =>
    have hkeyed (s : String × String) :
        decide ((if s.1 = key then (key, value) else s).1 = key) = decide (s.1 = key) := by
      split
      · next hs => simp [hs]
      · rfl
    rw [Db.getSetting, Db.find_map_of_keyed hkeyed]
    cases hfind : db.settings.find? fun s => decide (s.1 = key) with
    | none =>
      obtain ⟨s, hs, hkey⟩ := List.any_eq_true.mp hany
      exact absurd hkey (List.find?_eq_none.mp hfind s hs)
    | some s =>
      have hkey : s.1 = key := by simpa using List.find?_some hfind
      simp [hkey]
  · next hnone =>
    rw [Bool.not_eq_true, List.any_eq_false] at hnone
    have hfind : db.settings.find? (fun s => decide (s.1 = key)) = none := List.find?_eq_none.mpr hnone
    simp [Db.getSetting, List.find?_append, hfind]

theorem storedSecret_withSecret (w : World) (value : Option String) :
    storedSecret (w.withSecret KeyringKeys.userGoogleClientSecret value) = value := by
  simp [storedSecret, World.withSecret]

theorem deleteSecret_saving {e : StorageError} {w₁ : World} (hset : w.keyringSetFault = none)
    (hid : storedId w₁ = storedId w) (hsecret : storedSecret w₁ = some clientSecret)
    (hdelete : w₁.keyringDeleteFault = w.keyringDeleteFault) :
    Saving clientId clientSecret w (.error e) (deleteSecret KeyringKeys.userGoogleClientSecret w₁).2 := by
  rw [deleteSecret_run]
  cases hfault : w₁.keyringDeleteFault with
  | none =>
    exact .erased hset (hdelete.symm.trans hfault) hid (storedSecret_withSecret w₁.afterKeyringDelete none)
  | some text => exact .stuck hset (by simp [← hdelete, hfault]) hid hsecret

theorem saveUserGoogleCredentials_saving
    (h : saveUserGoogleCredentials clientId clientSecret w = (r, w')) :
    Saving clientId clientSecret w r w' := by
  rw [saveUserGoogleCredentials, bind_run, setSecret_run] at h
  cases hset : w.keyringSetFault with
  | some text =>
    rw [hset] at h
    cases h
    exact .refused (by simp [hset]) rfl rfl
  | none =>
    rw [hset] at h
    obtain ⟨outcome, w₁, hsetting, h⟩ := attempt_bind h
    rw [setSetting, execute_run] at hsetting
    have hsecret := storedSecret_withSecret w.afterKeyringSet (some clientSecret)
    split at hsetting
    · cases hsetting
      cases h
      exact deleteSecret_saving hset rfl hsecret rfl
    · cases hsetting
      cases h
      exact .saved (getSetting_setSetting _ _ _) hsecret

/-- A failed call gives back what was there: the keyring was not written at all, no pair could be
read before or after, or the compensation happens to leave the old secret. -/
def Restores (clientSecret : String) (w : World) : Prop :=
  w.keyringSetFault ≠ none ∨ storedId w = none ∨
    (w.keyringDeleteFault = none ∧ storedSecret w = none) ∨
    (w.keyringDeleteFault ≠ none ∧ storedSecret w = some clientSecret)

theorem storedPair_eq_iff {clientId : String} (hid : storedId w = some clientId)
    (hid' : storedId w' = storedId w) :
    storedPair w' = storedPair w ↔ storedSecret w' = storedSecret w := by
  rw [storedPair_of_id hid, storedPair_of_id (hid'.trans hid)]
  have hinjective : Function.Injective fun clientSecret : String => (clientId, clientSecret) :=
    fun a b heq => congrArg Prod.snd heq
  exact (Option.map_injective hinjective).eq_iff

theorem save_error_restores_iff {e : StorageError}
    (h : saveUserGoogleCredentials clientId clientSecret w = (.error e, w')) :
    storedPair w' = storedPair w ↔ Restores clientSecret w := by
  cases hstored : storedId w with
  | none =>
    have hid : storedId w' = storedId w := by
      cases saveUserGoogleCredentials_saving h with
      | refused _ hid _ => exact hid
      | erased _ _ hid _ => exact hid
      | stuck _ _ hid _ => exact hid
    rw [storedPair_of_noId hstored, storedPair_of_noId (hid.trans hstored)]
    exact iff_of_true rfl (Or.inr (Or.inl hstored))
  | some old =>
    cases saveUserGoogleCredentials_saving h with
    | refused hset hid hsecret => exact iff_of_true (storedPair_congr hid hsecret) (Or.inl hset)
    | erased hset hdelete hid hsecret =>
      rw [storedPair_eq_iff hstored hid, hsecret]
      simp [Restores, hset, hdelete, hstored, eq_comm]
    | stuck hset hdelete hid hsecret =>
      rw [storedPair_eq_iff hstored hid, hsecret]
      simp [Restores, hset, hdelete, hstored, eq_comm]

end Saving

section Runs

structure Wanes (w w' : World) : Prop where
  id : storedId w' = none ∨ storedId w' = storedId w
  secret : storedSecret w' = none ∨ storedSecret w' = storedSecret w

instance : Std.Refl Wanes := ⟨fun _ => ⟨Or.inr rfl, Or.inr rfl⟩⟩

instance : IsTrans World Wanes where
  trans := by
    intro w w₁ w₂ h₁ h₂
    constructor
    · cases h₂.id with
      | inl h => exact Or.inl h
      | inr h => rw [h]; exact h₁.id
    · cases h₂.secret with
      | inl h => exact Or.inl h
      | inr h => rw [h]; exact h₁.secret

variable {w w' : World}

theorem Wanes.pair (h : Wanes w w') : storedPair w' = none ∨ storedPair w' = storedPair w := by
  cases h.id with
  | inl hid => exact Or.inl (storedPair_of_noId hid)
  | inr hid =>
    cases h.secret with
    | inl hsecret => exact Or.inl (storedPair_of_noSecret hsecret)
    | inr hsecret => exact Or.inr (storedPair_congr hid hsecret)

theorem wanes_deleteSecret (key : String) : Moves Wanes (deleteSecret key) := by
  apply moves_deleteSecret
  · exact fun _ => ⟨Or.inr rfl, Or.inr rfl⟩
  · intro w
    refine ⟨Or.inr rfl, ?_⟩
    simp only [storedSecret, World.withSecret]
    split
    · exact Or.inl rfl
    · exact Or.inr rfl

theorem wanes_dbCall : Moves Wanes dbCall := moves_dbCall fun _ => ⟨Or.inr rfl, Or.inr rfl⟩

theorem wanes_execute {f : Db → Db}
    (hf : ∀ db : Db, (f db).getSetting SettingKeys.userGoogleClientId = none ∨
      (f db).getSetting SettingKeys.userGoogleClientId = db.getSetting SettingKeys.userGoogleClientId) :
    Moves Wanes (execute f) := by
  apply moves_statement
  · exact fun _ => ⟨Or.inr rfl, Or.inr rfl⟩
  · intro w u db heq
    cases heq
    exact ⟨hf w.db, Or.inr rfl⟩

theorem getSetting_deleteSetting (db : Db) (key other : String) :
    (db.deleteSetting other).getSetting key = none ∨
      (db.deleteSetting other).getSetting key = db.getSetting key := by
  simp only [Db.getSetting, Db.deleteSetting, List.find?_filter]
  by_cases heq : key = other
  · refine Or.inl (Option.map_eq_none_iff.mpr (List.find?_eq_none.mpr ?_))
    simp [heq]
  · refine Or.inr (congrArg (Option.map Prod.snd) (congrArg (List.find? · db.settings) ?_))
    funext s
    by_cases hs : s.1 = key <;> simp [hs, heq]

theorem wanes_deleteUserGoogleCredentials : Moves Wanes deleteUserGoogleCredentials :=
  moves_bind (wanes_deleteSecret _) fun _ =>
    wanes_execute fun db => getSetting_deleteSetting db _ _

theorem wanes_truncateTables : Moves Wanes truncateTables := by
  apply moves_bind wanes_dbCall
  intro _
  apply moves_bind wanes_dbCall
  intro _
  apply moves_bind wanes_dbCall
  intro _
  apply moves_bind wanes_dbCall
  intro _
  exact wanes_execute fun _ => Or.inl rfl

theorem wanes_wipeAllData : Moves Wanes wipeAllData := by
  apply moves_bind (moves_query (fun _ => ⟨Or.inr rfl, Or.inr rfl⟩) _)
  intro accounts
  apply moves_bind (moves_forEach (fun a : LinkedAccount => wanes_deleteSecret a.id.text) accounts)
  intro _
  apply moves_bind wanes_deleteUserGoogleCredentials
  intro _
  apply moves_bind (wanes_execute fun db => getSetting_deleteSetting db _ _)
  intro _
  apply moves_bind wanes_truncateTables
  intro _
  apply moves_bind (moves_ignore wanes_dbCall)
  intro _
  exact moves_ignore wanes_dbCall

/-- A step of the application, with the pairs that successful calls have saved so far.  A failed
call may only be made in the worlds that are allowed. -/
inductive CredentialStep (Allowed : String → World → Prop) :
    List (String × String) × World → List (String × String) × World → Prop
  | saved {pairs w clientId clientSecret after}
    (h : saveUserGoogleCredentials clientId clientSecret w = (.ok (), after)) :
    CredentialStep Allowed (pairs, w) ((clientId, clientSecret) :: pairs, after)
  | failed {pairs w clientId clientSecret e after} (hallowed : Allowed clientSecret w)
    (h : saveUserGoogleCredentials clientId clientSecret w = (.error e, after)) :
    CredentialStep Allowed (pairs, w) (pairs, after)
  | deleted (pairs w) : CredentialStep Allowed (pairs, w) (pairs, (deleteUserGoogleCredentials w).2)
  | wiped (pairs w) : CredentialStep Allowed (pairs, w) (pairs, (wipeAllData w).2)
  | elsewhere {pairs w after} (hid : storedId after = storedId w)
    (hsecret : storedSecret after = storedSecret w) : CredentialStep Allowed (pairs, w) (pairs, after)

def SavedTogether (s : List (String × String) × World) : Prop :=
  ∀ pair, storedPair s.2 = some pair → pair ∈ s.1

theorem SavedTogether.wane {pairs : List (String × String)} (hs : SavedTogether (pairs, w))
    (h : storedPair w' = none ∨ storedPair w' = storedPair w) : SavedTogether (pairs, w') := by
  intro pair hpair
  cases h with
  | inl hnone =>
    rw [hnone] at hpair
    cases hpair
  | inr hsame => exact hs pair (hsame.symm.trans hpair)

theorem SavedTogether.step {s t : List (String × String) × World} (hs : SavedTogether s)
    (h : CredentialStep Restores s t) : SavedTogether t := by
  cases h with
  | saved h =>
    intro pair hpair
    cases saveUserGoogleCredentials_saving h with
    | saved hid hsecret =>
      rw [storedPair_of_id hid, hsecret] at hpair
      cases hpair
      exact List.mem_cons_self
  | failed hallowed h => exact hs.wane (Or.inr ((save_error_restores_iff h).mpr hallowed))
  | deleted => exact hs.wane (wanes_deleteUserGoogleCredentials.run _).pair
  | wiped => exact hs.wane (wanes_wipeAllData.run _).pair
  | elsewhere hid hsecret => exact hs.wane (Or.inr (storedPair_congr hid hsecret))

theorem SavedTogether.run {s t : List (String × String) × World} (hs : SavedTogether s)
    (h : Relation.ReflTransGen (CredentialStep Restores) s t) : SavedTogether t := by
  induction h with
  | refl => exact hs
  | tail _ hstep ih => exact ih.step hstep

/-- A failed call changes nothing that is read back exactly when it restores the entries, and as
long as every failed call does, no pair is read that was not saved. -/
theorem saveUserGoogleCredentials_atomic_iff (w : World) :
    (∀ (clientId clientSecret : String) (w' : World) (e : StorageError),
      saveUserGoogleCredentials clientId clientSecret w = (.error e, w') →
      ((getUserGoogleCredentials (undisturbed w')).1 = (getUserGoogleCredentials (undisturbed w)).1 ↔
        Restores clientSecret w)) ∧
    ∀ (w' w'' : World) (pairs : List (String × String)) (pair : String × String),
      storedPair w = none →
      Relation.ReflTransGen (CredentialStep Restores) ([], w) (pairs, w') →
      getUserGoogleCredentials w' = (.ok (some pair), w'') → pair ∈ pairs := by
  constructor
  · intro clientId clientSecret w' e h
    rw [getUserGoogleCredentials_undisturbed, getUserGoogleCredentials_undisturbed, Except.ok.injEq]
    exact save_error_restores_iff h
  · intro w' w'' pairs pair hnone hrun hget
    have hfresh : SavedTogether ([], w) := by
      intro pair hpair
      rw [hnone] at hpair
      cases hpair
    exact hfresh.run hrun pair (getUserGoogleCredentials_eq_ok hget).symm

end Runs

section Example

def pairWorld (keyringDeleteFaults : List (Option String)) : World where
  db := { Db.empty with settings := [(SettingKeys.userGoogleClientId, "old-id")] }
  keyring key := if key = KeyringKeys.userGoogleClientSecret then some "old-secret" else none
  tokenCache := []
  journal := []
  outside := { dbFaults := [some "disk I/O error"], keyringDeleteFaults }

theorem saveUserGoogleCredentials_not_atomic :
    (∃ w', saveUserGoogleCredentials "new-id" "new-secret" (pairWorld []) =
        (.error (.db "disk I/O error"), w') ∧
      (getUserGoogleCredentials (undisturbed (pairWorld []))).1 = .ok (some ("old-id", "old-secret")) ∧
      (getUserGoogleCredentials (undisturbed w')).1 = .ok none) ∧
    ∃ w', saveUserGoogleCredentials "new-id" "new-secret" (pairWorld [some "locked"]) =
        (.error (.db "disk I/O error"), w') ∧
      (getUserGoogleCredentials (undisturbed w')).1 = .ok (some ("old-id", "new-secret")) :=
  ⟨⟨_, rfl, rfl, rfl⟩, _, rfl, rfl⟩

def emptyWorld : World where
  db := Db.empty
  keyring _ := none
  tokenCache := []
  journal := []
  outside := {}

def savedWorld : World := (saveUserGoogleCredentials "id" "secret" emptyWorld).2

theorem saveUserGoogleCredentials_atomic_iff_example :
    (getUserGoogleCredentials (undisturbed
      (saveUserGoogleCredentials "id" "secret" { emptyWorld with outside := { dbFaults := [some "full"] } }).2)).1 =
      .ok none ∧ ("id", "secret") ∈ [("id", "secret")] := by
  have hstep : CredentialStep Restores ([], emptyWorld) ([("id", "secret")], savedWorld) := .saved rfl
  have hget : getUserGoogleCredentials savedWorld =
      (.ok (some ("id", "secret")), (getUserGoogleCredentials savedWorld).2) := rfl
  constructor
  · have hfailed : saveUserGoogleCredentials "id" "secret"
        { emptyWorld with outside := { dbFaults := [some "full"] } } =
        (.error (.db "full"), (saveUserGoogleCredentials "id" "secret"
          { emptyWorld with outside := { dbFaults := [some "full"] } }).2) := rfl
    exact ((saveUserGoogleCredentials_atomic_iff _).1 _ _ _ _ hfailed).mpr (Or.inr (Or.inl rfl))
  · exact (saveUserGoogleCredentials_atomic_iff emptyWorld).2 _ _ _ _ rfl (.single hstep) hget

end Example

end Fumiko.Storage
