import Fumiko.EmailCore.GmailParsing

namespace Fumiko.EmailCore.Gmail

open Fumiko.Common Fumiko.Foundation Fumiko.Net Fumiko.EmailCore.Parsing

section Preorder

mutual

def preorder : MessagePartFull → List MessagePartFull
  | .mk mimeType filename headers body parts => .mk mimeType filename headers body parts :: preorderIn parts

def preorderIn : List MessagePartFull → List MessagePartFull
  | [] => []
  | part :: parts => preorder part ++ preorderIn parts

end

def bears (targetMime : String) (part : MessagePartFull) : Bool :=
  part.mimeType = targetMime && hasContent part

def attachedFile (part : MessagePartFull) : Option AttachmentMeta := do
  let filename ← part.filename
  let body ← part.body
  let attachmentId ← body.attachmentId
  if filename.isEmpty then none else some ⟨attachmentId, filename, part.mimeType, body.size.getD 0⟩

def attachmentOf (part : MessagePartFull) : Option AttachmentMeta :=
  if (contentId part).isNone then attachedFile part else none

def inlineOf (part : MessagePartFull) : Option InlinePart := do
  let cid ← contentId part
  let file ← attachedFile part
  some (cid, file.mimeType, file.id)

variable {targetMime : String} {lists : List AttachmentMeta × List InlinePart}

mutual

theorem findPart_eq : (part : MessagePartFull) →
    findPart targetMime part = (preorder part).find? (bears targetMime)
  | .mk mimeType filename headers body parts => by
    rw [findPart, preorder, List.find?_cons, findPartIn_eq parts]
    cases h : bears targetMime (.mk mimeType filename headers body parts) with
    | true =>
      rw [bears, Bool.and_eq_true, decide_eq_true_eq] at h
      exact if_pos h
    | false =>
      rw [bears, Bool.and_eq_false_imp, decide_eq_true_eq] at h
      refine if_neg ?_
      rintro ⟨hmime, hcontent⟩
      rw [h hmime] at hcontent
      cases hcontent

theorem findPartIn_eq : (parts : List MessagePartFull) →
    findPartIn targetMime parts = (preorderIn parts).find? (bears targetMime)
  | [] => rfl
  | part :: parts => by
    rw [findPartIn, preorderIn, List.find?_append, findPart_eq part, findPartIn_eq parts]
    cases (preorder part).find? (bears targetMime) <;> rfl

end

theorem collectPart_eq (part : MessagePartFull) : collectPart part lists =
    (lists.1 ++ (attachmentOf part).toList, lists.2 ++ (inlineOf part).toList) := by
  have hnone (h : attachedFile part = none) :
      lists = (lists.1 ++ (attachmentOf part).toList, lists.2 ++ (inlineOf part).toList) := by
    simp [attachmentOf, inlineOf, h]
  cases hfilename : part.filename with
  | none =>
    rw [← hnone (by simp [attachedFile, hfilename])]
    simp [collectPart, hfilename]
  | some filename =>
    cases hbody : part.body with
    | none =>
      rw [← hnone (by simp [attachedFile, hbody])]
      simp [collectPart, hbody]
    | some body =>
      cases hid : body.attachmentId with
      | none =>
        rw [← hnone (by simp [attachedFile, hbody, hid])]
        simp [collectPart, hfilename, hbody, hid]
      | some attachmentId =>
        by_cases hempty : filename = ""
        · rw [← hnone (by simp [attachedFile, hfilename, hbody, hid, hempty])]
          simp [collectPart, hfilename, hbody, hempty]
        · have hfile : attachedFile part =
              some ⟨attachmentId, filename, part.mimeType, body.size.getD 0⟩ := by
            simp [attachedFile, hfilename, hbody, hid, hempty]
          cases hcid : contentId part with
          | none => simp [collectPart, attachmentOf, inlineOf, hfilename, hbody, hid, hempty, hcid, hfile]
          | some cid => simp [collectPart, attachmentOf, inlineOf, hfilename, hbody, hid, hempty, hcid, hfile]

theorem filterMap_cons_eq {α β : Type} (f : α → Option β) (a : α) (l : List α) :
    (a :: l).filterMap f = (f a).toList ++ l.filterMap f := by
  rw [List.filterMap_cons]
  cases f a <;> rfl

mutual

theorem collectAttachments_eq : (part : MessagePartFull) → {lists : List AttachmentMeta × List InlinePart} →
    collectAttachments part lists =
      (lists.1 ++ (preorder part).filterMap attachmentOf, lists.2 ++ (preorder part).filterMap inlineOf)
  | .mk mimeType filename headers body parts, lists => by
    rw [collectAttachments, collectAll_eq parts, collectPart_eq, preorder, filterMap_cons_eq,
      filterMap_cons_eq]
    simp

theorem collectAll_eq : (parts : List MessagePartFull) → {lists : List AttachmentMeta × List InlinePart} →
    collectAll parts lists =
      (lists.1 ++ (preorderIn parts).filterMap attachmentOf, lists.2 ++ (preorderIn parts).filterMap inlineOf)
  | [], lists => by simp [collectAll, preorderIn]
  | part :: parts, lists => by
    rw [collectAll, collectAttachments_eq part, collectAll_eq parts, preorderIn]
    simp

end

end Preorder

section Selection

/-- `collect_attachments` takes the part for a file. -/
def isFile (part : MessagePartFull) : Bool := (attachedFile part).isSome

def ownPart (targetMime : String) (payload : MessagePartFull) : Option MessagePartFull :=
  (preorder payload).find? fun part => bears targetMime part && !isFile part

def bodyTypes : List String := ["text/plain", "text/html"]

def FilesFollow (payload : MessagePartFull) : Prop :=
  ∀ targetMime ∈ bodyTypes, ∀ before file after, preorder payload = before ++ file :: after →
    bears targetMime file → isFile file → ∃ own ∈ before, bears targetMime own ∧ isFile own = false

structure SelectsOwn (codecs : Codecs) (service : AttachmentService) (messageId : String)
    (payload : MessagePartFull) : Prop where
  first : ∀ targetMime ∈ bodyTypes, findPart targetMime payload = ownPart targetMime payload
  unlisted : ∀ targetMime ∈ bodyTypes, ∀ part, findPart targetMime payload = some part →
    (collectPart part ([], [])).1 = []
  text : ∀ part message, ownPart "text/plain" payload = none → ownPart "text/html" payload = some part →
    fetchFullMessageInner codecs service messageId (some payload) = .ok message →
    ∃ html, extractPartContent codecs service messageId part = .ok html ∧
      message.bodyText = html.bind (codecs.html2text · 80)

theorem forall_split_cons {α : Type} {P : List α → α → Prop} {x : α} {l : List α} :
    (∀ before a after, x :: l = before ++ a :: after → P before a) ↔
      P [] x ∧ ∀ before a after, l = before ++ a :: after → P (x :: before) a := by
  constructor
  · intro h
    exact ⟨h [] x l rfl, fun before a after hl => h (x :: before) a after (congrArg (List.cons x) hl)⟩
  · rintro ⟨hx, hrest⟩ before a after hsplit
    cases before with
    | nil =>
      rw [← (List.cons.inj hsplit).1]
      exact hx
    | cons b before =>
      rw [← (List.cons.inj hsplit).1]
      exact hrest before a after (List.cons.inj hsplit).2

theorem find?_eq_find?_not_iff {α : Type} {p q : α → Bool} {l : List α} :
    l.find? p = l.find? (fun a => p a && !q a) ↔
      ∀ before a after, l = before ++ a :: after → p a → q a → ∃ b ∈ before, p b ∧ q b = false := by
  induction l with
  | nil =>
    refine iff_of_true rfl fun before a after h => ?_
    exact absurd h.symm (List.append_ne_nil_of_right_ne_nil before (List.cons_ne_nil a after))
  | cons x l ih =>
    refine Iff.trans ?_ forall_split_cons.symm
    rw [List.find?_cons, List.find?_cons]
    cases hp : p x with
    | false => simpa [hp] using ih
    | true =>
      cases hq : q x with
      | false =>
        refine iff_of_true rfl ⟨fun _ hfile => by simp at hfile, fun before a after _ _ _ => ?_⟩
        exact ⟨x, List.mem_cons_self, hp, hq⟩
      | true =>
        refine iff_of_false (fun h => ?_) fun h => ?_
        · have hown := List.find?_some h.symm
          simp [hq] at hown
        · obtain ⟨b, hb, -⟩ := h.1 rfl rfl
          cases hb

theorem findPart_eq_ownPart_iff {payload : MessagePartFull} :
    (∀ targetMime ∈ bodyTypes, findPart targetMime payload = ownPart targetMime payload) ↔
      FilesFollow payload := by
  refine forall_congr' fun targetMime => forall_congr' fun _ => ?_
  rw [findPart_eq, ownPart]
  exact find?_eq_find?_not_iff

variable {codecs : Codecs} {service : AttachmentService} {messageId : String} {payload : MessagePartFull}
  {message : Parsing.FullMessage}

theorem fetchFullMessageInner_eq_ok
    (h : fetchFullMessageInner codecs service messageId (some payload) = .ok message) :
    ∃ html, fetchBody codecs service messageId "text/html" payload = .ok html ∧
      applyInlineImages codecs service messageId html ((preorder payload).filterMap inlineOf) =
        .ok message.bodyHtml ∧
      message.attachments = (preorder payload).filterMap attachmentOf ∧
      (findPart "text/plain" payload = none → message.bodyText = html.bind (codecs.html2text · 80)) := by
  rw [fetchFullMessageInner, collectAttachments_eq] at h
  simp only [List.nil_append] at h
  cases hhtml : fetchBody codecs service messageId "text/html" payload with
  | error e =>
    rw [hhtml] at h
    cases h
  | ok html =>
    rw [hhtml] at h
    refine ⟨html, rfl, ?_⟩
    cases hpart : findPart "text/plain" payload with
    | none =>
      rw [hpart] at h
      cases hinline : applyInlineImages codecs service messageId html
          ((preorder payload).filterMap inlineOf) with
      | error e => simp [hinline, bind, Except.bind, pure, Except.pure] at h
      | ok inlined =>
        simp [hinline, bind, Except.bind, pure, Except.pure] at h
        subst h
        exact ⟨rfl, rfl, fun _ => rfl⟩
    | some part =>
      rw [hpart] at h
      cases htext : extractPartContent codecs service messageId part with
      | error e => simp [htext, bind, Except.bind] at h
      | ok text =>
        cases hinline : applyInlineImages codecs service messageId html
            ((preorder payload).filterMap inlineOf) with
        | error e => simp [htext, hinline, bind, Except.bind] at h
        | ok inlined =>
          simp [htext, hinline, bind, Except.bind, pure, Except.pure] at h
          subst h
          exact ⟨rfl, rfl, fun h => by cases h⟩

/-- A body is a part of the message itself exactly if no file of its type precedes it. -/
theorem bodies_own_iff (codecs : Codecs) (service : AttachmentService) (messageId : String)
    (payload : MessagePartFull) : SelectsOwn codecs service messageId payload ↔ FilesFollow payload := by
  rw [← findPart_eq_ownPart_iff]
  refine ⟨SelectsOwn.first, fun hfirst => ⟨hfirst, ?_, ?_⟩⟩
  · intro targetMime htarget part hpart
    rw [hfirst targetMime htarget, ownPart] at hpart
    have hfile : isFile part = false := by
      have hown := List.find?_some hpart
      rw [Bool.and_eq_true, Bool.not_eq_true'] at hown
      exact hown.2
    have hnone : attachedFile part = none := Option.not_isSome_iff_eq_none.mp (by simpa [isFile] using hfile)
    simp [collectPart_eq, attachmentOf, hnone]
  · intro part message hplain hown hmessage
    obtain ⟨html, hhtml, -, -, htext⟩ := fetchFullMessageInner_eq_ok hmessage
    refine ⟨html, ?_, htext ((hfirst _ (by decide)).trans hplain)⟩
    rwa [fetchBody, (hfirst _ (by decide)).trans hown] at hhtml

def notes : MessagePartFull := .mk "text/plain" (some "notes.txt") none (some ⟨none, some "A1", some 2⟩) []

def htmlWithNotes : MessagePartFull :=
  .mk "multipart/mixed" (some "") none (some ⟨none, none, some 0⟩)
    [.mk "text/html" (some "") none (some ⟨some "aGk", none, some 2⟩) [], notes]

theorem attached_notes_read_as_body :
    findPart "text/plain" htmlWithNotes = some notes ∧
      (collectAttachments htmlWithNotes ([], [])).1 = [⟨"A1", "notes.txt", "text/plain", 2⟩] ∧
      ¬SelectsOwn greetingCodecs (fun _ => .response 200 "OK" (.ok ⟨"aGk"⟩)) "m" htmlWithNotes := by
  have hfound : findPart "text/plain" htmlWithNotes = some notes := rfl
  refine ⟨hfound, rfl, fun h => ?_⟩
  have hown : ownPart "text/plain" htmlWithNotes = none := rfl
  have hfirst := h.first "text/plain" (by decide)
  rw [hfound, hown] at hfirst
  cases hfirst

end Selection

end Fumiko.EmailCore.Gmail
