import Fumiko.OAuth.Rotation

namespace Fumiko.OAuth.Refresh

open Fumiko.Common Fumiko.Foundation Fumiko.Foundation.Action Fumiko.Net Fumiko.Program
  Fumiko.Storage

section Writing

variable {account : Uuid} {refreshToken new : String} {response : TokenResponse} {w : World}

theorem rotate_run (account : Uuid) (refreshToken : String) (response : TokenResponse) (w : World) :
    ∃ tokens w₁, tokens.refreshToken = (response.refreshToken <|> some refreshToken) ∧
      World.Calm w w₁ ∧
      (rotate account refreshToken response w).2 = (persistRotation account refreshToken tokens w₁).2 := by
  let tokens : TokenSet := {
    accessToken := response.accessToken
    refreshToken := response.refreshToken <|> some refreshToken
    expiresAt := w.outside.instants.headD 0 + safeExpiresIn response.expiresIn }
  let w₁ : World := { w with outside := { w.outside with instants := w.outside.instants.tail } }
  have hcalm : World.Calm w w₁ := ⟨rfl, rfl, rfl, rfl, rfl, List.suffix_rfl⟩
  have hrotate : rotate account refreshToken response w =
      (persistRotation account refreshToken tokens >>= fun _ => pure tokens) w₁ := rfl
  refine ⟨tokens, w₁, rfl, hcalm, ?_⟩
  rw [hrotate, bind_run]
  rcases persistRotation account refreshToken tokens w₁ with ⟨e | u, w₂⟩ <;> rfl

theorem rotate_keeps (h : ∀ new, response.refreshToken = some new → new = refreshToken) :
    (rotate account refreshToken response w).2.keyring = w.keyring := by
  obtain ⟨tokens, w₁, htokens, hcalm, hrun⟩ := rotate_run account refreshToken response w
  have hsame : tokens.refreshToken = some refreshToken := by
    rw [htokens]
    cases hresponse : response.refreshToken with
    | none => rfl
    | some new => rw [h new hresponse]; rfl
  rw [hrun, persistRotation, hsame, ← hcalm.keyring]
  simp

theorem rotate_writes (hresponse : response.refreshToken = some new) (hne : new ≠ refreshToken)
    (hfault : w.keyringSetFault = none) :
    (rotate account refreshToken response w).2.keyring account.text = some new := by
  obtain ⟨tokens, w₁, htokens, hcalm, hrun⟩ := rotate_run account refreshToken response w
  have hnew : tokens.refreshToken = some new := by rw [htokens, hresponse]; rfl
  rw [hrun, persistRotation, hnew]
  simp only [hne, ne_eq, not_false_eq_true, if_true, mapError_state, saveAccountSecret, setSecret_run,
    hcalm.keyringSetFault, hfault, World.withSecret]

end Writing

section Invariant

variable {account : Uuid} {original : String} {s s' : Rotating} {t t' : Refresh}
  {others : List Refresh} {p q : Pool Rotating Refresh}

/-- The secret of the account is the newest token, or the original one when none was issued. -/
def HoldsNewest (account : Uuid) (original : String) (s : Rotating) : Prop :=
  s.world.keyring account.text = some (s.issued.getD original)

def Current (account : Uuid) (original : String) (s : Rotating) (tasks : List Refresh) : Prop :=
  HoldsNewest account original s ∨ ∃ u ∈ tasks, u.Awaits s.issued

theorem Current.of_keeps (h : Current account original s others)
    (hkeyring : s'.world.keyring account.text = s.world.keyring account.text)
    (hissued : s'.issued = s.issued) : Current account original s' others := by
  rw [Current, HoldsNewest, hkeyring, hissued]
  exact h

theorem Current.mono (h : Current account original s others) {tasks : List Refresh}
    (hsubset : others ⊆ tasks) : Current account original s tasks := by
  obtain hholds | ⟨u, hu, hawaits⟩ := h
  · exact Or.inl hholds
  · exact Or.inr ⟨u, hsubset hu, hawaits⟩

theorem Current.drop (h : Current account original s (t :: others)) (ht : ¬t.Awaits s.issued) :
    Current account original s others := by
  obtain hholds | ⟨u, hu, hawaits⟩ := h
  · exact Or.inl hholds
  · cases hu with
    | head => exact absurd hawaits ht
    | tail _ hu => exact Or.inr ⟨u, hu, hawaits⟩

theorem holdsNewest_of_issued {new : String} (hissued : s.issued = some new)
    (hkeyring : s.world.keyring account.text = some new) : HoldsNewest account original s := by
  rw [HoldsNewest, hissued, hkeyring]
  rfl

theorem Current.end_quietly (h : Current account original s (t :: others))
    (hquiet : t.Awaits s.issued → s.world.keyring account.text = s.issued) :
    Current account original s others := by
  by_cases hawaits : t.Awaits s.issued
  · have hkeyring := hquiet hawaits
    cases t with
    | receiving refreshToken response arrives =>
      obtain ⟨-, hissued⟩ := hawaits
      obtain ⟨new, hnew⟩ := Option.isSome_iff_exists.mp hissued
      exact Or.inl (holdsNewest_of_issued hnew (hkeyring.trans hnew))
    | _ => cases hawaits
  · exact h.drop hawaits

theorem Current.quiet_step (h : Current account original s (t :: others))
    (horder : InOrder account s t others) (hwrites : ¬∃ new, t.Writes new) {w : World}
    (hkeyring : w.keyring = s.world.keyring) :
    Current account original { s with world := w } (t' :: others) := by
  have hothers : Current account original s others := by
    obtain hawaited | hordered := horder
    · exact Or.inr hawaited
    · exact h.end_quietly fun hawaits => (hordered.newest hawaits).resolve_left hwrites
  have hsame : Current account original { s with world := w } others :=
    hothers.of_keeps (congrFun hkeyring account.text) rfl
  exact hsame.mono (List.subset_cons_self _ _)

theorem Current.step (hstep : Step account t s t' s') (hsucceeds : Succeeds s t others)
    (horder : InOrder account s t others) (h : Current account original s (t :: others)) :
    Current account original s' (t' :: others) := by
  cases hstep with
  | read hread =>
    have hcalm := (calm_accountSecret account).of_eq hread
    exact h.quiet_step horder (by simp [Writes]) hcalm.keyring
  | unread hread =>
    have hcalm := (calm_accountSecret account).of_eq hread
    exact h.quiet_step horder (by simp [Writes]) hcalm.keyring
  | refused hcalm => exact h.quiet_step horder (by simp [Writes]) hcalm.keyring
  | lost hcalm => exact h.quiet_step horder (by simp [Writes]) hcalm.keyring
  | @answered _ refreshToken w response arrives hcalm =>
    cases hresponse : response.refreshToken with
    | none => exact h.quiet_step horder (by simp [Writes]) hcalm.keyring
    | some new => exact Or.inr ⟨_, List.mem_cons_self, hresponse, rfl⟩
  | @received _ refreshToken response =>
    by_cases hkeeps : ∀ new, response.refreshToken = some new → new = refreshToken
    · apply h.quiet_step horder ?_ (rotate_keeps hkeeps)
      rintro ⟨new, hresponse, hne, -⟩
      exact hne (hkeeps new hresponse)
    · simp only [not_forall] at hkeeps
      obtain ⟨new, hresponse, hne⟩ := hkeeps
      have hwrites : (Refresh.receiving refreshToken response true).Writes new := ⟨hresponse, hne, rfl⟩
      have hkeyring : (rotate account refreshToken response s.world).2.keyring account.text = some new :=
        rotate_writes hresponse hne (hsucceeds new hwrites)
      obtain ⟨u, hu, hawaits⟩ | hordered := horder
      · exact Or.inr ⟨u, List.mem_cons_of_mem _ hu, hawaits⟩
      · exact Or.inl (holdsNewest_of_issued (hordered.older new hwrites) hkeyring)

theorem current_perm {tasks : List Refresh} (h : Current account original s others)
    (hperm : others.Perm tasks) : Current account original s tasks :=
  h.mono hperm.subset

theorem Current.turn {guard : Rotating → Refresh → List Refresh → Prop}
    (hguard : ∀ s t others, guard s t others → Succeeds s t others ∧ InOrder account s t others)
    (hturn : Pool.Turn (rules account) guard p q) (h : Current account original p.shared p.tasks) :
    Current account original q.shared q.tasks := by
  cases hturn with
  | spawn hstart => exact h.mono (List.subset_cons_self _ _)
  | surroundings hmove => exact h.of_keeps hmove.2 hmove.1
  | step before after hstep hmet =>
    obtain ⟨hsucceeds, horder⟩ := hguard _ _ _ hmet
    have hfront := current_perm h List.perm_middle
    exact current_perm (hfront.step hstep hsucceeds horder) List.perm_middle.symm

theorem Current.run {guard : Rotating → Refresh → List Refresh → Prop}
    (hguard : ∀ s t others, guard s t others → Succeeds s t others ∧ InOrder account s t others)
    (hrun : Pool.Run (rules account) guard p q) (h : Current account original p.shared p.tasks) :
    Current account original q.shared q.tasks := by
  induction hrun with
  | refl => exact h
  | tail _ hturn ih => exact ih.turn hguard hturn

end Invariant

section Alone

variable {bundled : Bundled} {account : LinkedAccount} {refreshToken : String} {tokens : TokenSet}
  {w w' : World}

theorem requestTokens_eq_ok (h : requestTokens bundled account refreshToken w = (.ok tokens, w')) :
    ∃ response w₁, World.Calm w w₁ ∧
      (responseToTokenSet response (some refreshToken) : Program TokenError TokenSet) w₁ =
        (.ok tokens, w') := by
  obtain ⟨credentials, w₁, hcredentials, h⟩ := bind_eq_ok.mp h
  obtain ⟨client, w₂, hclient, h⟩ := bind_eq_ok.mp h
  obtain ⟨outcome, w₃, hresponse, h⟩ := bind_eq_ok.mp h
  have hbefore : World.Calm w w₁ := by
    refine Moves.of_eq (moves_mapError ?_) hcredentials
    cases account.provider <;> exact calm_loadCredentials _ _ _
  have hbuilt : World.Calm w₁ w₂ := (moves_mapError (moves_buildOAuthClient _ _)).of_eq hclient
  have hasked : World.Calm w₂ w₃ := calm_nextToken.of_eq hresponse
  cases outcome with
  | error text => cases h
  | ok response =>
    exact ⟨response, w₃, IsTrans.trans _ _ _ hbefore (IsTrans.trans _ _ _ hbuilt hasked), h⟩

theorem alone_step {id : Uuid} {t t' : Refresh} {s s' : Rotating} (h : Step id t s t' s') :
    Pool.Alone (rules id) (t, s) (t', s') := .single h

theorem alone_getAccessTokenForAccount (hoauth : ¬(account.provider = .imap ∨ account.imapHost.isSome))
    (bundled : Bundled) (w : World) (issued : Option String) :
    ∃ issued', Pool.Alone (rules account.id) (.reading, ⟨w, issued⟩)
      (.finished, ⟨(getAccessTokenForAccount bundled account w).2, issued'⟩) := by
  rw [getAccessTokenForAccount, if_neg hoauth]
  rcases hread : accountSecret account.id w with ⟨e | refreshToken, w₁⟩
  · refine ⟨issued, ?_⟩
    rw [bind_run, hread]
    exact alone_step (.unread hread)
  · have hreading : Pool.Alone (rules account.id) (.reading, ⟨w, issued⟩)
        (.requesting refreshToken, ⟨w₁, issued⟩) := alone_step (.read hread)
    rw [bind_run, hread]
    dsimp only
    rcases hrequest : requestTokens bundled account refreshToken w₁ with ⟨e | tokens, w₂⟩
    · refine ⟨issued, ?_⟩
      rw [bind_run, hrequest]
      have hcalm := (calm_requestTokens bundled account refreshToken).of_eq hrequest
      exact hreading.trans (alone_step (.refused hcalm))
    · obtain ⟨response, w₃, hcalm, htokens⟩ := requestTokens_eq_ok hrequest
      have hrotate : (rotate account.id refreshToken response w₃).2 =
          ((persistRotation account.id refreshToken tokens >>= fun _ => pure tokens) w₂).2 := by
        rw [rotate, bind_run, htokens]
      rw [bind_run, hrequest]
      dsimp only
      rw [← hrotate]
      exact ⟨_, hreading.trans ((alone_step (.answered response true hcalm)).trans (alone_step .received))⟩

end Alone

/-- However the calls take turns, the keyring ends up with the newest refresh token, as long
as none is written over a newer one and the newest is not lost on its way. -/
theorem run_keeps_newest {account : Uuid} {original : String} {w : World} {p : Pool Rotating Refresh}
    (hstart : w.keyring account.text = some original)
    (hrun : Pool.Run (rules account)
      (fun s t others => Succeeds s t others ∧ InOrder account s t others) ⟨⟨w, none⟩, []⟩ p)
    (hquiet : Pool.Quiescent Finished p) : HoldsNewest account original p.shared := by
  have hbefore : Current account original ⟨w, none⟩ [] := Or.inl hstart
  have hcurrent := hbefore.run (fun _ _ _ => id) hrun
  obtain hholds | ⟨u, hu, hawaits⟩ := hcurrent
  · exact hholds
  · rw [hquiet u hu] at hawaits
    cases hawaits

section Example

def rotatingAccount : Uuid := .ending '1'

def oldWorld : World where
  db := Db.empty
  keyring _ := some "old"
  tokenCache := []
  journal := []
  outside := {}

def replacement (refreshToken : String) : TokenResponse := ⟨"access", some refreshToken, none⟩

theorem oldWorld_read : accountSecret rotatingAccount oldWorld = (.ok "old", oldWorld) := rfl

def rotated (refreshTokens : List String) : World :=
  refreshTokens.foldl (fun w new => (rotate rotatingAccount "old" (replacement new) w).2) oldWorld

theorem turn_step {account : Uuid} {guard : Rotating → Refresh → List Refresh → Prop} {t t' : Refresh}
    {s s' : Rotating} (before after : List Refresh) (h : Step account t s t' s')
    (hguard : guard s t (before ++ after)) :
    Pool.Turn (rules account) guard ⟨s, before ++ t :: after⟩ ⟨s', before ++ t' :: after⟩ :=
  .step before after h hguard

theorem two_calls_run : Pool.Run (rules rotatingAccount) Succeeds ⟨⟨oldWorld, none⟩, []⟩
    ⟨⟨rotated ["new2", "new1"], some "new2"⟩, [.finished, .finished]⟩ := by
  have hfault {w : World} {t : Refresh} {others : List Refresh} {issued : Option String}
      (hw : w.keyringSetFault = none) : Succeeds ⟨w, issued⟩ t others := fun _ _ => hw
  have hfirst : Step rotatingAccount (.requesting "old") ⟨oldWorld, none⟩
      (.receiving "old" (replacement "new1") true) ⟨oldWorld, some "new1"⟩ :=
    .answered (replacement "new1") true (Std.Refl.refl _)
  have hsecond : Step rotatingAccount (.requesting "old") ⟨oldWorld, some "new1"⟩
      (.receiving "old" (replacement "new2") true) ⟨oldWorld, some "new2"⟩ :=
    .answered (replacement "new2") true (Std.Refl.refl _)
  refine .head (.spawn rfl) (.head (.spawn rfl) ?_)
  refine .head (turn_step [] [.reading] (.read oldWorld_read) (hfault rfl)) ?_
  refine .head (turn_step [.requesting "old"] [] (.read oldWorld_read) (hfault rfl)) ?_
  refine .head (turn_step [] [.requesting "old"] hfirst (hfault rfl)) ?_
  refine .head (turn_step [.receiving "old" (replacement "new1") true] [] hsecond (hfault rfl)) ?_
  refine .head (turn_step [.receiving "old" (replacement "new1") true] [] .received (hfault rfl)) ?_
  exact .single (turn_step [] [.finished] .received (hfault rfl))

theorem run_loses_newest :
    ¬∀ (account : Uuid) (original : String) (w : World) (p : Pool Rotating Refresh),
      w.keyring account.text = some original →
      Pool.Run (rules account) Succeeds ⟨⟨w, none⟩, []⟩ p → Pool.Quiescent Finished p →
      HoldsNewest account original p.shared := by
  intro h
  have hquiet : Pool.Quiescent Finished
      (⟨⟨rotated ["new2", "new1"], some "new2"⟩, [.finished, .finished]⟩ : Pool Rotating Refresh) := by
    simp [Pool.Quiescent, Finished]
  have hholds := h rotatingAccount "old" oldWorld _ rfl two_calls_run hquiet
  revert hholds
  rw [HoldsNewest]
  decide

theorem one_call_run : Pool.Run (rules rotatingAccount)
    (fun s t others => Succeeds s t others ∧ InOrder rotatingAccount s t others)
    ⟨⟨oldWorld, none⟩, []⟩ ⟨⟨rotated ["new1"], some "new1"⟩, [.finished]⟩ := by
  have hanswered : Step rotatingAccount (.requesting "old") ⟨oldWorld, none⟩
      (.receiving "old" (replacement "new1") true) ⟨oldWorld, some "new1"⟩ :=
    .answered (replacement "new1") true (Std.Refl.refl _)
  have hwrites : (Refresh.receiving "old" (replacement "new1") true).Writes "new1" :=
    ⟨rfl, by decide, rfl⟩
  refine .head (.spawn rfl) ?_
  refine .head (turn_step [] [] (.read oldWorld_read) ⟨fun _ _ => rfl, Or.inr ⟨by simp [Awaits], by simp [Writes]⟩⟩) ?_
  refine .head (turn_step [] [] hanswered ⟨fun _ _ => rfl, Or.inr ⟨by simp [Awaits], by simp [Writes]⟩⟩) ?_
  refine .single (turn_step [] [] .received ⟨fun _ _ => rfl, Or.inr ⟨fun _ => Or.inl ⟨_, hwrites⟩, ?_⟩⟩)
  rintro new ⟨hnew, -⟩
  exact hnew

theorem run_keeps_newest_example : HoldsNewest rotatingAccount "old" ⟨rotated ["new1"], some "new1"⟩ := by
  have hstart : oldWorld.keyring rotatingAccount.text = some "old" := rfl
  exact run_keeps_newest hstart one_call_run (by simp [Pool.Quiescent, Finished])

end Example

end Fumiko.OAuth.Refresh
