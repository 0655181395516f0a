import Fumiko.EmailCore.ImapDiscoveryLaws

namespace Fumiko.EmailCore.Imap

open Fumiko.Common Fumiko.Foundation Fumiko.Foundation.Action Fumiko.Net Fumiko.Program

variable {cursor : String} {validity uid : ℕ} {session : ImapSession} {w : World}

def Emitted (cursor : String) : Prop :=
  ∃ validity uid, validity < 2 ^ 32 ∧ uid < 2 ^ 32 ∧ cursor = formatCursor validity uid

def SplitsInTwo (cursor : String) : Prop := (fields ':' cursor.toList).length = 2

theorem parseCursor_eq_none_iff : parseCursor cursor = none ↔ ¬ SplitsInTwo cursor := by
  rw [parseCursor, SplitsInTwo]
  split
  · next v u hfields => simp [hfields]
  · next hfields =>
    simp only [true_iff]
    intro hlength
    obtain ⟨v, u, heq⟩ := List.length_eq_two.mp hlength
    exact hfields v u heq

theorem Emitted.splitsInTwo (h : Emitted cursor) : SplitsInTwo cursor := by
  obtain ⟨validity, uid, hvalidity, huid, rfl⟩ := h
  by_contra hsplits
  have hnone := parseCursor_eq_none_iff.mpr hsplits
  rw [parseCursor_formatCursor hvalidity huid] at hnone
  cases hnone

structure Selects (session : ImapSession) (validity : ℕ) (w : World) : Prop where
  next : w.outside.imap.head? = some session
  connect : session.connect = .connected
  select : ∃ answer, session.select = .ok answer ∧ answer.getD 0 = validity

theorem Selects.incrementalSync (h : Selects session validity w)
    (hparse : parseCursor cursor = some (validity, uid)) :
    (Imap.incrementalSync cursor w).1 =
      ((session.search (.uidFrom ((uid + 1) % 2 ^ 32))).map fun found =>
        incrementalPage validity uid found.val).mapError otherError := by
  obtain ⟨answer, hanswer, hvalidity⟩ := h.select
  have hconnect : connectSession w = (.ok session, (nextImap (ε := ProviderError) w).2) := by
    simp only [connectSession, nextImap, bind_run, step_run, h.next, h.connect, pure_run]
  have hinbox (u : World) : selectInbox session u = (.ok answer, u.record (.imapSelected answer)) := by
    simp only [selectInbox, reply, hanswer]
    rfl
  simp only [Imap.incrementalSync, hparse, bind_run, hconnect, hinbox, hvalidity, ne_eq,
    not_true_eq_false, if_false, uidSearch, reply]
  cases session.search (.uidFrom ((uid + 1) % 2 ^ 32)) <;> rfl

/-- The incremental sync takes a cursor as the sync routines write it, and no other. -/
structure DecodesStrictly (cursor : String) : Prop where
  rejects : ¬ Emitted cursor → ∀ w, (incrementalSync cursor w).1 = .error .cursorExpired
  decodes : ∀ validity uid, validity < 2 ^ 32 → uid < 2 ^ 32 → cursor = formatCursor validity uid →
    parseCursor cursor = some (validity, uid)
  searches : ∀ validity uid, validity < 2 ^ 32 → uid < 2 ^ 32 → cursor = formatCursor validity uid →
    ∀ session w, Selects session validity w → (incrementalSync cursor w).1 =
      ((session.search (.uidFrom (uid + 1))).map fun found =>
        incrementalPage validity uid found.val).mapError otherError

/-- The cursor has no single colon, or it is one that the sync routines write and its UID
is not the highest there is. -/
def Unambiguous (cursor : String) : Prop :=
  ¬ SplitsInTwo cursor ∨
    ∃ validity uid, validity < 2 ^ 32 ∧ uid + 1 < 2 ^ 32 ∧ cursor = formatCursor validity uid

theorem DecodesStrictly.of_unsplit (h : ¬ SplitsInTwo cursor) : DecodesStrictly cursor where
  rejects _ w := by
    rw [incrementalSync, parseCursor_eq_none_iff.mpr h]
    rfl
  decodes validity uid hvalidity huid heq :=
    absurd (Emitted.splitsInTwo ⟨validity, uid, hvalidity, huid, heq⟩) h
  searches validity uid hvalidity huid heq :=
    absurd (Emitted.splitsInTwo ⟨validity, uid, hvalidity, huid, heq⟩) h

theorem formatCursor_inj {v u : ℕ} (hvalidity : validity < 2 ^ 32) (huid : uid < 2 ^ 32)
    (hv : v < 2 ^ 32) (hu : u < 2 ^ 32) (h : formatCursor validity uid = formatCursor v u) :
    validity = v ∧ uid = u := by
  have hparse := parseCursor_formatCursor hvalidity huid
  rw [h, parseCursor_formatCursor hv hu] at hparse
  exact ⟨(Prod.mk.inj (Option.some.inj hparse)).1.symm, (Prod.mk.inj (Option.some.inj hparse)).2.symm⟩

theorem DecodesStrictly.of_emitted (hvalidity : validity < 2 ^ 32) (huid : uid + 1 < 2 ^ 32) :
    DecodesStrictly (formatCursor validity uid) where
  rejects h := absurd ⟨validity, uid, hvalidity, Nat.lt_of_succ_lt huid, rfl⟩ h
  decodes v u hv hu heq := by
    rw [heq, parseCursor_formatCursor hv hu]
  searches v u hv hu heq session w hselects := by
    obtain ⟨rfl, rfl⟩ := formatCursor_inj hvalidity (Nat.lt_of_succ_lt huid) hv hu heq
    rw [hselects.incrementalSync (parseCursor_formatCursor hv hu), Nat.mod_eq_of_lt huid]

def reaching (session : Option ImapSession) : World where
  db := Storage.Db.empty
  keyring _ := none
  tokenCache := []
  journal := []
  outside := { imap := session.toList }

def wrapped (validity : ℕ) : ImapSession where
  connect := .connected
  select := .ok (some validity)
  search
    | .uidFrom 0 => .ok ⟨[], List.nodup_nil⟩
    | _ => .error "BAD"
  fetch _ := .ok []
  fullMessage _ := .error .cursorExpired

theorem DecodesStrictly.emitted (h : DecodesStrictly cursor) (hsplits : SplitsInTwo cursor) :
    Emitted cursor := by
  by_contra hemitted
  have hexpired := h.rejects hemitted (reaching none)
  rw [incrementalSync] at hexpired
  cases hparse : parseCursor cursor with
  | none => exact parseCursor_eq_none_iff.mp hparse hsplits
  | some parts =>
    rw [hparse] at hexpired
    cases hexpired

theorem DecodesStrictly.uid_lt (h : DecodesStrictly (formatCursor validity uid))
    (hvalidity : validity < 2 ^ 32) (huid : uid < 2 ^ 32) : uid + 1 < 2 ^ 32 := by
  by_contra hlast
  have hmax : uid + 1 = 2 ^ 32 := by omega
  have hselects : Selects (wrapped validity) validity (reaching (some (wrapped validity))) :=
    ⟨rfl, rfl, some validity, rfl, rfl⟩
  have hsearch := h.searches validity uid hvalidity huid rfl _ _ hselects
  rw [hselects.incrementalSync (parseCursor_formatCursor hvalidity huid), hmax, Nat.mod_self] at hsearch
  cases hsearch

/-- The decoding is strict exactly on the cursors without a single colon and on those that a
sync routine writes before the last UID. -/
theorem incrementalSync_strict_iff (cursor : String) : DecodesStrictly cursor ↔ Unambiguous cursor := by
  constructor
  · intro h
    by_cases hsplits : SplitsInTwo cursor
    · obtain ⟨validity, uid, hvalidity, huid, rfl⟩ := h.emitted hsplits
      exact Or.inr ⟨validity, uid, hvalidity, h.uid_lt hvalidity huid, rfl⟩
    · exact Or.inl hsplits
  · rintro (hsplits | ⟨validity, uid, hvalidity, huid, rfl⟩)
    · exact .of_unsplit hsplits
    · exact .of_emitted hvalidity huid

theorem cursor_defaults_and_wraps :
    ¬ DecodesStrictly "inbox:latest" ∧ ¬ DecodesStrictly "1:4294967295" := by
  constructor
  · intro h
    obtain ⟨validity, uid, -, -, heq⟩ := h.emitted rfl
    have hletter : 'i' ∈ (formatCursor validity uid).toList := by
      rw [← heq]
      decide
    rw [formatCursor, String.toList_append, String.toList_append] at hletter
    simp only [List.mem_append] at hletter
    obtain (hletter | hletter) | hletter := hletter
    · exact absurd (Decimal.digit_of_mem_repr hletter) (by decide)
    · exact absurd hletter (by decide)
    · exact absurd (Decimal.digit_of_mem_repr hletter) (by decide)
  · intro h
    have hcursor : "1:4294967295" = formatCursor 1 4294967295 := by decide
    rw [hcursor] at h
    exact absurd (h.uid_lt (by decide) (by decide)) (by decide)

end Fumiko.EmailCore.Imap
