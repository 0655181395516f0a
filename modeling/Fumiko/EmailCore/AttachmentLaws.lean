import Fumiko.EmailCore.GmailParsingLaws
import Fumiko.EmailCore.ImapParsing

namespace Fumiko.EmailCore.Parsing

open Fumiko.Common Fumiko.Foundation Fumiko.Foundation.FoldedReplacement Fumiko.Net

def Refers (folding : CaseFolding) (contentId html : String) : Prop :=
  ∃ front rest, html.toList = front ++ rest ∧ folding.Starts (cidPattern contentId) rest

def ReplacedIn (folding : CaseFolding) (contentId uri html : String) : Prop :=
  ∃ front written rest, html.toList = front ++ written ++ rest ∧
    written.map folding.fold = (cidPattern contentId).map folding.fold ∧
    (replaceCid folding contentId uri html).toList = front ++ expand written uri.toList ++
      replaceAll folding (cidPattern contentId) uri.toList rest

theorem cidPattern_ne_nil (contentId : String) : cidPattern contentId ≠ [] := List.cons_ne_nil _ _

theorem replacedIn_iff {folding : CaseFolding} {contentId uri html : String} :
    ReplacedIn folding contentId uri html ↔ Refers folding contentId html := by
  constructor
  · rintro ⟨front, written, rest, hhtml, hwritten, -⟩
    refine ⟨front, written ++ rest, ?_, starts_append hwritten⟩
    rw [hhtml, List.append_assoc]
  · intro h
    obtain ⟨front, written, rest, hhtml, hwritten, hreplace⟩ :=
      replaceAll_first (cidPattern_ne_nil contentId) h
    refine ⟨front, written, rest, hhtml, hwritten, ?_⟩
    rw [replaceCid, String.toList_ofList, hreplace]

end Fumiko.EmailCore.Parsing

namespace Fumiko.EmailCore.Gmail

open Fumiko.Common Fumiko.Foundation Fumiko.Foundation.FoldedReplacement Fumiko.Net
  Fumiko.EmailCore.Parsing

def IsBody (before : List MessagePartFull) (part : MessagePartFull) : Prop :=
  ∃ targetMime ∈ bodyTypes, bears targetMime part ∧ ∀ earlier ∈ before, bears targetMime earlier = false

def HasAttachment (part : MessagePartFull) : Prop := (part.body.bind MessagePartBody.attachmentId).isSome

def Named (part : MessagePartFull) : Prop := ∃ filename, part.filename = some filename ∧ filename ≠ ""

variable (codecs : Codecs) (service : AttachmentService) (messageId : String) (payload : MessagePartFull)

def HtmlAfter (before : List MessagePartFull) (html : String) : Prop :=
  ∃ fetched, fetchBody codecs service messageId "text/html" payload = .ok (some fetched) ∧
    inlineParts codecs service messageId (before.filterMap inlineOf) fetched = .ok html

def Inlined (before : List MessagePartFull) (part : MessagePartFull) : Prop :=
  ∃ html image uri, HtmlAfter codecs service messageId payload before html ∧ inlineOf part = some image ∧
    inlineUri codecs service messageId image = .ok uri ∧ ReplacedIn codecs.folding image.1 uri html

/-- Every attachment of the message is listed or inlined, and none is listed twice. -/
structure KeepsAttachments (message : Parsing.FullMessage) : Prop where
  kept : ∀ before part after, preorder payload = before ++ part :: after → HasAttachment part →
    ¬IsBody before part →
    (∃ entry, attachmentOf part = some entry ∧ message.attachments =
        before.filterMap attachmentOf ++ entry :: after.filterMap attachmentOf) ∨
      Inlined codecs service messageId payload before part
  once : message.attachments = (preorder payload).filterMap attachmentOf

/-- Every attachment has a name, and one with a content id is referred to when its turn comes. -/
def Presentable : Prop :=
  ∀ before part after, preorder payload = before ++ part :: after → HasAttachment part →
    ¬IsBody before part → Named part ∧ ∀ cid, contentId part = some cid →
      ∃ html, HtmlAfter codecs service messageId payload before html ∧ Refers codecs.folding cid html

section Keeping

variable {codecs : Codecs} {service : AttachmentService} {messageId : String} {payload : MessagePartFull}
  {message : Parsing.FullMessage} {before after : List MessagePartFull} {part : MessagePartFull}

theorem attachedFile_isSome_iff : (attachedFile part).isSome ↔ Named part ∧ HasAttachment part := by
  rw [attachedFile, Named, HasAttachment]
  cases part.filename with
  | none => simp
  | some filename =>
    cases part.body with
    | none => simp
    | some body =>
      cases hid : body.attachmentId with
      | none => simp [hid]
      | some attachmentId => by_cases hempty : filename = "" <;> simp [hid, hempty]

theorem attachmentOf_isSome_iff (h : HasAttachment part) :
    (attachmentOf part).isSome ↔ Named part ∧ contentId part = none := by
  rw [attachmentOf]
  cases contentId part with
  | none => simpa using attachedFile_isSome_iff.trans (and_iff_left h)
  | some cid => simp

theorem inlineOf_eq_some {image : InlinePart} (h : inlineOf part = some image) :
    Named part ∧ contentId part = some image.1 := by
  rw [inlineOf] at h
  cases hcid : contentId part with
  | none =>
    rw [hcid] at h
    cases h
  | some cid =>
    cases hfile : attachedFile part with
    | none =>
      rw [hcid, hfile] at h
      cases h
    | some file =>
      rw [hcid, hfile] at h
      cases h
      exact ⟨(attachedFile_isSome_iff.mp (hfile ▸ rfl)).1, rfl⟩

theorem inlineOf_of_named {cid : String} (hnamed : Named part) (h : HasAttachment part)
    (hcid : contentId part = some cid) : ∃ file : AttachmentMeta, inlineOf part = some (cid, file.mimeType, file.id) := by
  obtain ⟨file, hfile⟩ := Option.isSome_iff_exists.mp (attachedFile_isSome_iff.mpr ⟨hnamed, h⟩)
  refine ⟨file, ?_⟩
  rw [inlineOf, hcid, hfile]
  rfl

theorem inlineParts_append {front rest : List InlinePart} {html : String} :
    inlineParts codecs service messageId (front ++ rest) html =
      (inlineParts codecs service messageId front html).bind (inlineParts codecs service messageId rest) := by
  induction front generalizing html with
  | nil => rfl
  | cons image front ih =>
    rw [List.cons_append, inlineParts, inlineParts]
    cases inlineUri codecs service messageId image with
    | error e => rfl
    | ok uri => exact ih

theorem inlineUri_of_ok {html inlined : Option String} {fetched : String} {image : InlinePart}
    {front rest : List InlinePart} (hhtml : html = some fetched)
    (h : applyInlineImages codecs service messageId html (front ++ image :: rest) = .ok inlined) :
    ∃ uri, inlineUri codecs service messageId image = .ok uri := by
  rw [hhtml, applyInlineImages, inlineParts_append] at h
  cases hfront : inlineParts codecs service messageId front fetched with
  | error e =>
    rw [hfront] at h
    cases h
  | ok html =>
    rw [hfront] at h
    cases huri : inlineUri codecs service messageId image with
    | error e =>
      simp [Except.bind, inlineParts, huri, bind, Except.map] at h
    | ok uri => exact ⟨uri, rfl⟩

theorem inlined_iff (h : fetchFullMessageInner codecs service messageId (some payload) = .ok message)
    (hsplit : preorder payload = before ++ part :: after) (hpart : HasAttachment part) :
    Inlined codecs service messageId payload before part ↔ Named part ∧ ∃ cid html,
      contentId part = some cid ∧ HtmlAfter codecs service messageId payload before html ∧
        Refers codecs.folding cid html := by
  constructor
  · rintro ⟨html, image, uri, hhtml, himage, -, hreplaced⟩
    obtain ⟨hnamed, hcid⟩ := inlineOf_eq_some himage
    exact ⟨hnamed, image.1, html, hcid, hhtml, replacedIn_iff.mp hreplaced⟩
  · rintro ⟨hnamed, cid, html, hcid, hhtml, hrefers⟩
    obtain ⟨file, himage⟩ := inlineOf_of_named hnamed hpart hcid
    have hfetch := hhtml
    obtain ⟨fetched, hfetched, -⟩ := hfetch
    obtain ⟨body, hbody, happlied, -, -⟩ := fetchFullMessageInner_eq_ok h
    rw [hfetched] at hbody
    rw [hsplit, List.filterMap_append, List.filterMap_cons_some himage] at happlied
    obtain ⟨uri, huri⟩ := inlineUri_of_ok (Except.ok.inj hbody).symm happlied
    exact ⟨html, _, uri, hhtml, himage, huri, replacedIn_iff.mpr hrefers⟩

theorem keepsAttachments_iff
    (h : fetchFullMessageInner codecs service messageId (some payload) = .ok message) :
    KeepsAttachments codecs service messageId payload message ↔
      Presentable codecs service messageId payload := by
  obtain ⟨-, -, -, honce, -⟩ := fetchFullMessageInner_eq_ok h
  constructor
  · intro hkeeps before part after hsplit hpart hbody
    cases hkeeps.kept before part after hsplit hpart hbody with
    | inl hlisted =>
      obtain ⟨entry, hentry, -⟩ := hlisted
      obtain ⟨hnamed, hcid⟩ := (attachmentOf_isSome_iff hpart).mp (hentry ▸ rfl)
      refine ⟨hnamed, fun cid hsome => ?_⟩
      rw [hcid] at hsome
      cases hsome
    | inr hinlined =>
      obtain ⟨hnamed, cid, html, hcid, hhtml, hrefers⟩ := (inlined_iff h hsplit hpart).mp hinlined
      refine ⟨hnamed, fun cid' hsome => ⟨html, hhtml, ?_⟩⟩
      rw [hcid] at hsome
      exact Option.some.inj hsome ▸ hrefers
  · intro hpresentable
    refine ⟨fun before part after hsplit hpart hbody => ?_, honce⟩
    obtain ⟨hnamed, hrefers⟩ := hpresentable before part after hsplit hpart hbody
    cases hcid : contentId part with
    | none =>
      obtain ⟨entry, hentry⟩ := Option.isSome_iff_exists.mp
        ((attachmentOf_isSome_iff hpart).mpr ⟨hnamed, hcid⟩)
      refine Or.inl ⟨entry, hentry, ?_⟩
      rw [honce, hsplit, List.filterMap_append, List.filterMap_cons_some hentry]
    | some cid =>
      obtain ⟨html, hhtml, hrefers⟩ := hrefers cid hcid
      exact Or.inr ((inlined_iff h hsplit hpart).mpr ⟨hnamed, cid, html, hcid, hhtml, hrefers⟩)

end Keeping

end Fumiko.EmailCore.Gmail

namespace Fumiko.EmailCore.Imap

open Fumiko.Common Fumiko.Foundation Fumiko.Foundation.FoldedReplacement Fumiko.Net
  Fumiko.EmailCore.Parsing

variable (codecs : Codecs) (uid : String) (parsed : ParsedMessage)

def htmlAfter (before : List ParsedPart) : Option String :=
  (walkAttachments codecs uid 0 before parsed.bodyHtml []).1

def Inlined (before : List ParsedPart) (part : ParsedPart) : Prop :=
  ∃ html cid, htmlAfter codecs uid parsed before = some html ∧ part.contentId = some cid ∧
    ReplacedIn codecs.folding (trimBrackets cid) (partUri codecs part) html

/-- Every attachment of the message is listed or inlined, and none is listed twice. -/
structure KeepsAttachments : Prop where
  kept : ∀ before part after, parsed.attachments = before ++ part :: after →
    metaOf uid before.length part ∈ (fullMessageOf codecs uid parsed).attachments ∨
      Inlined codecs uid parsed before part
  once : (fullMessageOf codecs uid parsed).attachments.Nodup

def Presentable : Prop :=
  ∀ before part after, parsed.attachments = before ++ part :: after → ∀ cid, part.contentId = some cid →
    ∃ html, htmlAfter codecs uid parsed before = some html ∧
      Refers codecs.folding (trimBrackets cid) html

section Keeping

variable {codecs : Codecs} {uid : String} {parsed : ParsedMessage} {before after : List ParsedPart}
  {part : ParsedPart}

def entryOf (uid : String) (place : ParsedPart × Nat) : Option AttachmentMeta :=
  if place.1.contentId.isNone then some (metaOf uid place.2 place.1) else none

theorem walkAttachments_snd {idx : Nat} {parts : List ParsedPart} {html : Option String}
    {attachments : List AttachmentMeta} :
    (walkAttachments codecs uid idx parts html attachments).2 =
      attachments ++ (parts.zipIdx idx).filterMap (entryOf uid) := by
  induction parts generalizing idx html attachments with
  | nil => simp [walkAttachments]
  | cons part parts ih =>
    cases hcid : part.contentId with
    | none => simp [walkAttachments, hcid, ih, entryOf]
    | some cid => simp [walkAttachments, hcid, ih, entryOf]

theorem attachments_eq : (fullMessageOf codecs uid parsed).attachments =
    parsed.attachments.zipIdx.filterMap (entryOf uid) := by
  rw [fullMessageOf, walkAttachments_snd, List.nil_append]

theorem metaOf_injective {i j : Nat} {part part' : ParsedPart} (h : metaOf uid i part = metaOf uid j part') :
    i = j := by
  have hid := congrArg (fun entry : AttachmentMeta => entry.id.toList) h
  simp only [metaOf, String.toList_append, List.append_assoc, List.append_cancel_left_eq] at hid
  have hdigits (n : Nat) (rest : List Char) :
      ((Nat.repr n).toList ++ ("_".toList ++ rest)).takeWhile (· ≠ '_') = (Nat.repr n).toList := by
    have hfree : ∀ c ∈ (Nat.repr n).toList, decide (c ≠ '_') = true := by
      intro c hc
      refine decide_eq_true ?_
      rintro rfl
      exact absurd (Decimal.digit_of_mem_repr hc) (by decide)
    rw [List.takeWhile_append_of_pos hfree]
    exact List.append_nil _
  have hrepr := congrArg (List.takeWhile fun c => decide (c ≠ '_')) hid
  rw [hdigits, hdigits] at hrepr
  exact Decimal.repr_injective (String.toList_inj.mp hrepr)

theorem entries_nodup {parts : List ParsedPart} : (parts.zipIdx.filterMap (entryOf uid)).Nodup := by
  have hplaces : parts.zipIdx.Pairwise fun place place' => place.2 ≠ place'.2 := by
    rw [← List.pairwise_map, List.zipIdx_map_snd]
    exact List.nodup_range'
  refine hplaces.filterMap _ fun place place' hne entry hentry entry' hentry' heq => hne ?_
  rw [entryOf, Option.ite_none_right_eq_some] at hentry hentry'
  exact metaOf_injective (Option.some.inj (hentry.2.trans (heq ▸ hentry'.2.symm)))

theorem listed_iff (hsplit : parsed.attachments = before ++ part :: after) :
    metaOf uid before.length part ∈ (fullMessageOf codecs uid parsed).attachments ↔
      part.contentId = none := by
  have hplace : parsed.attachments[before.length]? = some part := by
    rw [hsplit, List.getElem?_append_right (Nat.le_refl _), Nat.sub_self, List.getElem?_cons_zero]
  rw [attachments_eq, List.mem_filterMap]
  constructor
  · rintro ⟨⟨part', idx⟩, hmem, hentry⟩
    rw [entryOf, Option.ite_none_right_eq_some] at hentry
    have hidx : idx = before.length := metaOf_injective (Option.some.inj hentry.2)
    have hpart : parsed.attachments[idx]? = some part' := List.mem_zipIdx_iff_getElem?.mp hmem
    rw [hidx, hplace] at hpart
    rw [Option.some.inj hpart]
    exact Option.isNone_iff_eq_none.mp hentry.1
  · intro hcid
    refine ⟨(part, before.length), List.mem_zipIdx_iff_getElem?.mpr hplace, ?_⟩
    rw [entryOf, if_pos (Option.isNone_iff_eq_none.mpr hcid)]

theorem keepsAttachments_iff : KeepsAttachments codecs uid parsed ↔ Presentable codecs uid parsed := by
  constructor
  · intro hkeeps before part after hsplit cid hcid
    cases hkeeps.kept before part after hsplit with
    | inl hlisted =>
      rw [(listed_iff hsplit).mp hlisted] at hcid
      cases hcid
    | inr hinlined =>
      obtain ⟨html, cid', hhtml, hcid', hreplaced⟩ := hinlined
      rw [hcid] at hcid'
      exact ⟨html, hhtml, Option.some.inj hcid' ▸ replacedIn_iff.mp hreplaced⟩
  · intro hpresentable
    refine ⟨fun before part after hsplit => ?_, attachments_eq ▸ entries_nodup⟩
    cases hcid : part.contentId with
    | none => exact Or.inl ((listed_iff hsplit).mpr hcid)
    | some cid =>
      obtain ⟨html, hhtml, hrefers⟩ := hpresentable before part after hsplit cid hcid
      exact Or.inr ⟨html, cid, hhtml, hcid, replacedIn_iff.mpr hrefers⟩

end Keeping

end Fumiko.EmailCore.Imap

namespace Fumiko.EmailCore.Parsing

open Fumiko.Common Fumiko.Foundation Fumiko.Foundation.FoldedReplacement Fumiko.Net

def greetingService : Gmail.AttachmentService := fun _ => .response 200 "OK" (.ok ⟨"aGk"⟩)

def bill (headers : Option (List MessageHeader)) : Gmail.MessagePartFull :=
  .mk "application/pdf" (some "bill.pdf") headers (some ⟨none, some "A1", some 9⟩) []

def greeting : Gmail.MessagePartFull := .mk "text/plain" (some "") none (some ⟨some "aGk", none, some 2⟩) []

def greetingWith (attached : Gmail.MessagePartFull) : Gmail.MessagePartFull :=
  .mk "multipart/mixed" (some "") none (some ⟨none, none, some 0⟩) [greeting, attached]

def billHeaders : Option (List MessageHeader) := some [⟨"Content-ID", "<bill>"⟩]

end Fumiko.EmailCore.Parsing
