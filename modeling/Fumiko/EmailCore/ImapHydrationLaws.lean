import Fumiko.EmailCore.Imap

namespace Fumiko.EmailCore.Imap

open Fumiko.Common Fumiko.Foundation Fumiko.Foundation.Action Fumiko.Net Fumiko.Program

variable {ids : List String} {id : String} {fetches fetches' : List ImapFetch} {f g : ImapFetch}
  {now : Int} {w w' : World}

section Extracts

structure Extract where
  subject : String
  sender : String
  date : Option Int
  isRead : Bool
  snippet : Option String
  deriving DecidableEq

def extract (f : ImapFetch) : Extract where
  subject := (f.headers.bind (·.subject)).getD "(no subject)"
  sender := (f.headers.bind (·.sender)).getD "(no sender)"
  date := f.headers.bind (·.date)
  isRead := f.isSeen
  snippet := f.text.bind scrubSnippet

/-- The metadata of a message that is read at the time `now`. -/
def Extract.metadata (id : String) (now : Int) (r : Extract) : MessageMetadata where
  id := id
  subject := r.subject
  sender := r.sender
  receivedAt := r.date.getD now
  isRead := r.isRead
  snippet := r.snippet

theorem date_of_getD {a b : Option Int} (h : ∀ now : Int, a.getD now = b.getD now) : a = b := by
  cases a with
  | none =>
    cases b with
    | none => rfl
    | some d =>
      have hlater : d + 1 = d := h (d + 1)
      omega
  | some c =>
    cases b with
    | none =>
      have hlater : c = c + 1 := h (c + 1)
      omega
    | some d =>
      have hnow : c = d := h 0
      rw [hnow]

theorem Extract.eq_of_metadata {r s : Extract} (h : ∀ now, r.metadata id now = s.metadata id now) :
    r = s := by
  have hdate : r.date = s.date := date_of_getD fun now => congrArg MessageMetadata.receivedAt (h now)
  have hfields := h 0
  cases r
  cases s
  simp only [Extract.metadata, MessageMetadata.mk.injEq] at hfields hdate
  simp only [Extract.mk.injEq]
  exact ⟨hfields.2.1, hfields.2.2.1, hdate, hfields.2.2.2.2⟩

end Extracts

section Answers

def Names (id : String) (f : ImapFetch) : Prop := f.uid.map Nat.repr = some id

instance : DecidablePred (Names id) := fun _ => inferInstanceAs (Decidable (_ = _))

theorem fetchFor_eq_none_iff : fetchFor fetches id = none ↔ ∀ f ∈ fetches, ¬ Names id f := by
  simp [fetchFor, Names]

theorem fetchFor_eq_some (h : fetchFor fetches id = some f) : f ∈ fetches ∧ Names id f := by
  have hnames := List.find?_some h
  exact ⟨List.mem_reverse.mp (List.mem_of_find?_eq_some h), of_decide_eq_true hnames⟩

theorem fetchFor_append_self (h : Names id f) : fetchFor (fetches ++ [f]) id = some f := by
  rw [fetchFor, List.reverse_append]
  exact List.find?_cons_of_pos (decide_eq_true h)

def answer (fetches : List ImapFetch) (id : String) : Option Extract :=
  (fetchFor fetches id).map extract

theorem answer_eq_none_iff : answer fetches id = none ↔ ∀ f ∈ fetches, ¬ Names id f := by
  rw [answer, Option.map_eq_none_iff, fetchFor_eq_none_iff]

theorem answer_eq_some {r : Extract} (h : answer fetches id = some r) :
    ∃ f ∈ fetches, Names id f ∧ extract f = r := by
  obtain ⟨f, hfetch, hr⟩ := Option.map_eq_some_iff.mp h
  obtain ⟨hmem, hnames⟩ := fetchFor_eq_some hfetch
  exact ⟨f, hmem, hnames, hr⟩

theorem answer_append_self (h : Names id f) : answer (fetches ++ [f]) id = some (extract f) := by
  rw [answer, fetchFor_append_self h]
  rfl

/-- The outcome for one message that is read at the time `now`. -/
def outcome (id : String) (now : Int) : Option Extract → Except ProviderError MessageMetadata
  | none => .error (.invalidData (missingText id))
  | some r => .ok (r.metadata id now)

theorem readFetch_outcome (fetches : List ImapFetch) (id : String) (w : World) :
    (readFetch fetches id w).1 = outcome id (w.outside.clock.headD 0) (answer fetches id) := by
  rw [readFetch, answer]
  cases fetchFor fetches id with
  | none => rfl
  | some f =>
    simp only [Option.map_some, outcome, Extract.metadata, extract]
    cases f.headers.bind (·.date) <;> rfl

def ticks : Option Extract → ℕ
  | some { date := none, .. } => 1
  | _ => 0

theorem ticks_le : ∀ answer, ticks answer ≤ 1
  | none => Nat.zero_le 1
  | some { date := none, .. } => le_rfl
  | some { date := some _, .. } => Nat.zero_le 1

theorem readFetch_clock (fetches : List ImapFetch) (id : String) (w : World) :
    (readFetch fetches id w).2.outside.clock = w.outside.clock.drop (ticks (answer fetches id)) := by
  rw [readFetch, answer]
  cases fetchFor fetches id with
  | none => rfl
  | some f =>
    simp only [Option.map_some, extract]
    cases f.headers.bind (·.date) with
    | none => exact (List.drop_one).symm
    | some d => rfl

end Answers

section HydratesOne

def hydrated (answers : String → Option Extract) : List Int → List String →
    List (Except ProviderError MessageMetadata)
  | _, [] => []
  | clock, id :: ids =>
    outcome id (clock.headD 0) (answers id) ::
      hydrated answers (clock.drop (ticks (answers id))) ids

theorem collect_readFetch (fetches : List ImapFetch) (ids : List String) (w : World) :
    ((collect (readFetch fetches) ids : Program ProviderError _) w).1 =
      .ok (hydrated (answer fetches) w.outside.clock ids) := by
  induction ids generalizing w with
  | nil => rfl
  | cons id ids ih =>
    have hrest := ih (readFetch fetches id w).2
    rw [readFetch_clock] at hrest
    change ((collect (readFetch fetches) ids >>= fun rs =>
      pure ((readFetch fetches id w).1 :: rs) : Program ProviderError _) (readFetch fetches id w).2).1 = _
    rw [bind_run]
    rcases hcollect : (collect (readFetch fetches) ids : Program ProviderError _)
      (readFetch fetches id w).2 with ⟨r, t⟩
    rw [hcollect] at hrest
    cases hrest
    simp only [pure_run, hydrated, readFetch_outcome]

theorem hydrated_forall₂ {P : String → Except ProviderError MessageMetadata → Prop}
    {answers : String → Option Extract} (h : ∀ id ∈ ids, ∀ now, P id (outcome id now (answers id)))
    (clock : List Int) : List.Forall₂ P ids (hydrated answers clock ids) := by
  induction ids generalizing clock with
  | nil => exact .nil
  | cons id ids ih =>
    exact .cons (h id List.mem_cons_self _) (ih (fun id' hid' => h id' (List.mem_cons_of_mem _ hid')) _)

theorem hydrated_congr {a b : String → Option Extract} (h : ∀ id ∈ ids, a id = b id)
    (clock : List Int) : hydrated a clock ids = hydrated b clock ids := by
  induction ids generalizing clock with
  | nil => rfl
  | cons id ids ih =>
    have hid : a id = b id := h id List.mem_cons_self
    simp only [hydrated, hid]
    rw [ih fun id' hid' => h id' (List.mem_cons_of_mem _ hid')]

theorem hydrated_replicate (answers : String → Option Extract) {n : ℕ} (hn : ids.length ≤ n) :
    hydrated answers (List.replicate n now) ids = ids.map fun id => outcome id now (answers id) := by
  induction ids generalizing n with
  | nil => rfl
  | cons id ids ih =>
    rw [List.length_cons] at hn
    have hhead : (List.replicate n now).headD 0 = now := by
      cases n with
      | zero => omega
      | succ n => rfl
    have hticks := ticks_le (answers id)
    simp only [hydrated, List.map_cons, hhead, List.drop_replicate]
    rw [ih (by omega)]

end HydratesOne

section Alignment

def Serves (ids : List String) (fetches : List ImapFetch) (w : World) : Prop :=
  ∃ session rest validity, w.outside.imap = session :: rest ∧ session.connect = .connected ∧
    session.select = .ok validity ∧ session.fetch ids = .ok fetches

theorem Serves.fetchMessageMetadata (h : Serves ids fetches w) :
    (Imap.fetchMessageMetadata ids w).1 = .ok (hydrated (answer fetches) w.outside.clock ids) := by
  obtain ⟨session, rest, validity, himap, hconnect, hselect, hfetch⟩ := h
  rw [Imap.fetchMessageMetadata]
  split
  · next hempty =>
    rw [List.isEmpty_iff.mp hempty]
    rfl
  · have hsession : connectSession w =
        (.ok session, { w with outside := { w.outside with imap := rest } }) := by
      simp only [connectSession, nextImap, bind_run, step_run, himap, List.head?_cons, hconnect,
        List.tail_cons, pure_run]
    have hinbox (u : World) : selectInbox session u =
        (.ok validity, u.record (.imapSelected validity)) := by
      simp only [selectInbox, reply, hselect]
      rfl
    simp only [bind_run, hsession, hinbox, hfetch, reply, pure_run]
    exact collect_readFetch fetches ids _

structure HydratesOne (fetches : List ImapFetch) (id : String)
    (r : Except ProviderError MessageMetadata) : Prop where
  found_iff : (∃ m, r = .ok m) ↔ ∃ f ∈ fetches, Names id f
  keeps_id : ∀ m, r = .ok m → m.id = id
  headers : ∀ m, r = .ok m → ∀ f ∈ fetches, Names id f → ∀ h, f.headers = some h →
    m.subject = h.subject.getD "(no subject)" ∧ m.sender = h.sender.getD "(no sender)" ∧
      ∀ date, h.date = some date → m.receivedAt = date

/-- The hydration is aligned with the requested messages, and the order of the responses
does not matter. -/
structure Aligned (ids : List String) (fetches : List ImapFetch) : Prop where
  aligned : ∀ w, Serves ids fetches w → ∃ results,
    (fetchMessageMetadata ids w).1 = .ok results ∧ List.Forall₂ (HydratesOne fetches) ids results
  unordered : ∀ fetches' w w', fetches'.Perm fetches → Serves ids fetches w →
    Serves ids fetches' w' → w'.outside.clock = w.outside.clock →
      (fetchMessageMetadata ids w').1 = (fetchMessageMetadata ids w).1

def ReadsAlike (ids : List String) (fetches : List ImapFetch) : Prop :=
  ∀ id ∈ ids, ∀ f ∈ fetches, ∀ g ∈ fetches, Names id f → Names id g → extract f = extract g

theorem ReadsAlike.answer (h : ReadsAlike ids fetches) (hid : id ∈ ids) (hf : f ∈ fetches) (hnames : Names id f) :
    answer fetches id = some (extract f) := by
  cases hanswer : Imap.answer fetches id with
  | none => exact absurd hnames (answer_eq_none_iff.mp hanswer f hf)
  | some r =>
    obtain ⟨g, hg, hgnames, rfl⟩ := answer_eq_some hanswer
    rw [h id hid g hg f hf hgnames hnames]

theorem ReadsAlike.answer_perm (h : ReadsAlike ids fetches) (hperm : fetches'.Perm fetches) (hid : id ∈ ids) :
    Imap.answer fetches' id = Imap.answer fetches id := by
  cases hanswer : Imap.answer fetches' id with
  | none =>
    apply Eq.symm
    rw [answer_eq_none_iff] at hanswer ⊢
    exact fun f hf => hanswer f (hperm.mem_iff.mpr hf)
  | some r =>
    obtain ⟨f, hf, hnames, rfl⟩ := answer_eq_some hanswer
    exact (h.answer hid (hperm.mem_iff.mp hf) hnames).symm

theorem ReadsAlike.hydrated (h : ReadsAlike ids fetches) (hid : id ∈ ids) (now : Int) :
    HydratesOne fetches id (outcome id now (Imap.answer fetches id)) := by
  cases hanswer : Imap.answer fetches id with
  | none =>
    have hnone := answer_eq_none_iff.mp hanswer
    exact ⟨⟨nofun, fun ⟨f, hf, hnames⟩ => absurd hnames (hnone f hf)⟩, nofun, nofun⟩
  | some r =>
    obtain ⟨g, hg, hgnames, rfl⟩ := answer_eq_some hanswer
    refine ⟨⟨fun _ => ⟨g, hg, hgnames⟩, fun _ => ⟨_, rfl⟩⟩, ?_, ?_⟩
    · rintro m ⟨⟩
      rfl
    · rintro m ⟨⟩ f hf hnames headers hheaders
      rw [h id hid g hg f hf hgnames hnames]
      simp only [Extract.metadata, extract, hheaders, Option.bind_some, true_and]
      intro date hdate
      rw [hdate]
      rfl

theorem ReadsAlike.aligned (h : ReadsAlike ids fetches) : Aligned ids fetches where
  aligned w hserves :=
    ⟨_, hserves.fetchMessageMetadata, hydrated_forall₂ (fun _ hid now => h.hydrated hid now) _⟩
  unordered fetches' w w' hperm hserves hserves' hclock := by
    rw [hserves.fetchMessageMetadata, hserves'.fetchMessageMetadata, hclock,
      hydrated_congr fun id hid => h.answer_perm hperm hid]

def fetchingSession (fetches : List ImapFetch) : ImapSession where
  connect := .connected
  select := .ok none
  search _ := .ok ⟨[], .nil⟩
  fetch _ := .ok fetches
  fullMessage _ := .error .cursorExpired

/-- A world in which each of the first `n` looks at the clock shows `now`. -/
def standing (fetches : List ImapFetch) (now : Int) (n : ℕ) : World where
  db := Storage.Db.empty
  keyring _ := none
  tokenCache := []
  journal := []
  outside := { imap := [fetchingSession fetches], clock := List.replicate n now }

theorem standing_serves (ids : List String) (fetches : List ImapFetch) (now : Int) (n : ℕ) :
    Serves ids fetches (standing fetches now n) :=
  ⟨fetchingSession fetches, [], none, rfl, rfl, rfl, rfl⟩

theorem Aligned.extract_eq (h : Aligned ids fetches) (hid : id ∈ ids) (hf : f ∈ fetches)
    (hnames : Names id f) : answer fetches id = some (extract f) := by
  let last := fetches.erase f ++ [f]
  have hperm : last.Perm fetches :=
    (List.perm_append_singleton f (fetches.erase f)).trans (List.perm_cons_erase hf).symm
  have hlast : answer last id = some (extract f) := answer_append_self hnames
  have heq (now : Int) : outcome id now (answer last id) = outcome id now (answer fetches id) := by
    have hrun := h.unordered last _ _ hperm (standing_serves ids fetches now ids.length)
      (standing_serves ids last now ids.length) rfl
    rw [(standing_serves ids last now ids.length).fetchMessageMetadata,
      (standing_serves ids fetches now ids.length).fetchMessageMetadata] at hrun
    have hmap := Except.ok.inj hrun
    rw [standing, standing, hydrated_replicate _ le_rfl, hydrated_replicate _ le_rfl] at hmap
    exact List.map_inj_left.mp hmap id hid
  rw [hlast] at heq
  cases hanswer : answer fetches id with
  | none => exact absurd hnames (answer_eq_none_iff.mp hanswer f hf)
  | some r =>
    rw [hanswer] at heq
    rw [Extract.eq_of_metadata fun now => Except.ok.inj (heq now)]

/-- The hydration is aligned exactly when no two responses about a requested message differ
in what is read from them. -/
theorem fetchMessageMetadata_aligned_iff (ids : List String) (fetches : List ImapFetch) :
    Aligned ids fetches ↔ ReadsAlike ids fetches := by
  constructor
  · intro h id hid f hf g hg hfnames hgnames
    exact Option.some.inj ((h.extract_eq hid hf hfnames).symm.trans (h.extract_eq hid hg hgnames))
  · exact ReadsAlike.aligned

def offer : ImapFetch where
  uid := some 7
  isSeen := false
  headers := some { subject := some "Offer", sender := some "hr@example.com", date := some 1700000000 }
  text := none

def offerSeen : ImapFetch where
  uid := some 7
  isSeen := true
  headers := none
  text := none

theorem flags_replace_headers : ¬ Aligned ["7"] [offer, offerSeen] := by
  intro h
  have hanswer := h.extract_eq (f := offer) List.mem_cons_self List.mem_cons_self rfl
  have hlast : answer ([offer] ++ [offerSeen]) "7" = some (extract offerSeen) := answer_append_self rfl
  have hsubject : "Offer" = "(no subject)" :=
    congrArg Extract.subject (Option.some.inj (hanswer.symm.trans hlast))
  exact absurd hsubject (by decide)

end Alignment

end Fumiko.EmailCore.Imap
